import Mt7610u.Lib.DlList
import Mt7610u.Lib.Runs
import Mathlib.Algebra.Ring.Int.Defs

/-! # Commands to the MCU

`andes_send_cmd_msg` puts a command message into `txq`, takes the messages out of `txq` again and hands their
URBs to the host controller. A command that wants a response is in `ackq` meanwhile, another in `kickq`. The
completion handler of the URB, the tasklet `andes_cmd_msg_bh` that looks at the responses, and the timeout of
the sender take it out of there; what is done with goes to `tx_doneq`, where the tasklet frees it.

The steps are the sections between which contexts of execution can change: the sections under the lock of a
queue, and the reads and writes of a message's `state` that no lock protects. The controller is up: `MCU_INIT`
is tested where the source tests it, and nothing here clears it. The messages that the receive side allocates
for itself are represented by the responses that they bring. -/

namespace Mt7610u.Mcu

open Lib.DlList Lib.Runs

/-- `enum cmd_msg_state`, without the states of the receive side. -/
inductive CmdMsgState
  | illegal
  | txStart
  | txKickoutFail
  | txTimeoutFail
  | txRetransmit
  | txDone
  | waitCmdOut
  | waitCmdOutAndAck
  | waitAck
  deriving DecidableEq

inductive Queue
  | txq
  | ackq
  | kickq
  | txDoneq
  deriving DecidableEq

/-- A response as `andes_rx_process_cmd_msg` gets it; `origin` is the command that the firmware answers with
it, which no code reads. -/
structure Response (μ : Type) where
  cmdSeq : ℕ
  pktLen : ℕ
  origin : Option μ
  deriving DecidableEq

/-- Where the URB of a message is: not submitted or done with, at the host controller, in its completion
handler behind the first locked section, in the handler behind the write of `tx_kickout_fail`. -/
inductive Urb
  | idle
  | active
  | unlinked (ok : Bool)
  | marked
  deriving DecidableEq

/-- `struct cmd_msg` with its URB. `place` is the queue that the message was put into and not taken out of
since, `allocated` and `frees` count the calls of `andes_alloc_cmd_msg` and `andes_free_cmd_msg`,
`submitted` tells that its URB was handed to the host controller, `answeredBy` is the response that the
message was taken out of `ackq` for, and `filledBy` the one that its `rsp_handler` was given. -/
structure Msg (μ : Type) where
  needWait : Bool
  needRsp : Bool
  needRetransmit : Bool
  retransmitTimes : ℤ
  rspPayloadLen : ℕ
  seq : ℕ
  state : CmdMsgState
  ackDone : Bool
  urb : Urb
  place : Option Queue
  allocated : Bool
  frees : ℕ
  submitted : Bool
  answeredBy : Option (Response μ)
  filledBy : Option (Response μ)
  deriving DecidableEq

/-- Where a sender is: `m` is the message it was called with, `w` its `need_wait`, `x` a message taken out of
`txq`. -/
inductive Loc (μ : Type)
  | idle
  -- before the semaphore, behind it
  | called (m : μ)
  | entered (m : μ)
  -- the loop of `andes_dequeue_and_kick_out_cmd_msgs`: before the next message is taken out, before `ackq` is
  -- tested, before the number is chosen, before `usb_kick_out_cmd_msg`
  | kicking (m : μ) (w : Bool)
  | took (m : μ) (w : Bool) (x : μ)
  | number (m : μ) (w : Bool) (x : μ)
  | fill (m : μ) (w : Bool) (x : μ)
  -- in `usb_kick_out_cmd_msg`: before the URB is submitted, behind a submission that failed, and the
  -- message unlinked
  | linked (m : μ) (w : Bool) (x : μ)
  | refused (m : μ) (w : Bool) (x : μ)
  | failed (m : μ) (w : Bool) (x : μ)
  -- waiting for the response; behind the timeout, and what `state` tells to do then
  | waiting (m : μ)
  | expired (m : μ)
  | kill (m : μ)
  | killing (m : μ)
  | unlink (m : μ)
  -- before the message is handed to `tx_doneq`
  | finish (m : μ) (state : CmdMsgState)
  deriving DecidableEq

/-- Where the tasklet is: in its loop over `rx_doneq`, with a message that it has matched to a response; in its
loop over `tx_doneq`, with a message that it has taken out. -/
inductive Bh (μ : Type)
  | idle
  | rx
  | responding (m : μ) (r : Response μ)
  | tx
  | reaping (m : μ)
  deriving DecidableEq

inductive Fault
  | nullPointer
  | freedMsg
  | wrongQueue
  | linkedTwice
  deriving DecidableEq

/-- The controller, the messages `μ` and the senders `κ`; `ret` is what `andes_send_cmd_msg` returns. -/
structure Sys (κ μ : Type) where
  links : Links (Queue ⊕ μ)
  msg : μ → Msg μ
  cmdSeq : ℕ
  allocCmdMsg : ℕ
  mcuInit : Bool
  -- `fRTMP_ADAPTER_MCU_SEND_IN_BAND_CMD`, `fRTMP_ADAPTER_NIC_NOT_EXIST`, `fRTMP_ADAPTER_SUSPEND`
  sendInBandCmd : Bool
  nicNotExist : Bool
  suspend : Bool
  mcuAtomic : ℕ
  rxDoneq : List (Response μ)
  bh : Bh μ
  loc : κ → Loc μ
  ret : κ → ℤ
  fault : Option Fault

abbrev ndisStatusSuccess : ℤ := 0

abbrev ndisStatusFailure : ℤ := 1

/-- What `down_interruptible` returns when a signal comes. -/
abbrev eintr : ℤ := -4

abbrev cmdMsgRetransmitTimes : ℤ := 3

inductive Op (κ μ : Type)
  -- a message is allocated and `andes_send_cmd_msg` called with it; callers want to wait when they want a
  -- response and only then
  | send (k : κ) (m : μ) (wait : Bool) (rspPayloadLen : ℕ)
  | enter (k : κ) (interrupted : Bool)
  | check (k : κ)
  | dequeue (k : κ)
  | test (k : κ)
  | number (k : κ)
  | link (k : κ)
  | submit (k : κ) (accepted : Bool)
  | refuse (k : κ)
  | fail (k : κ)
  | wake (k : κ)
  | expire (k : κ)
  | look (k : κ)
  | kill (k : κ)
  | killed (k : κ)
  | unlink (k : κ)
  | finish (k : κ)
  -- `usb_kick_out_cmd_msg_complete`
  | complete (m : μ) (ok : Bool)
  | handled (m : μ)
  | signal (m : μ)
  -- a response arrives; `andes_cmd_msg_bh`
  | receive (r : Response μ)
  | bhStart
  | bhRx
  | bhRespond
  | bhTx
  | bhFree
  -- others change the adapter's flags
  | flags (sendInBandCmd nicNotExist suspend : Bool)

def Msg.blank {μ : Type} : Msg μ :=
  { needWait := false, needRsp := false, needRetransmit := false, retransmitTimes := 0, rspPayloadLen := 0
    seq := 0, state := .illegal, ackDone := false, urb := .idle, place := none, allocated := false
    frees := 0, submitted := false, answeredBy := none, filledBy := none }

/-- The controller after `andes_ctrl_init`. -/
def Sys.init (κ μ : Type) : Sys κ μ :=
  { links := Links.empty
    msg := fun _ => Msg.blank
    cmdSeq := 0
    allocCmdMsg := 0
    mcuInit := true
    sendInBandCmd := false
    nicNotExist := false
    suspend := false
    mcuAtomic := 1
    rxDoneq := []
    bh := .idle
    loc := fun _ => .idle
    ret := fun _ => 0
    fault := none }

/-- `andes_init_cmd_msg`, which sets `need_retransmit` to `FALSE` whatever it is told. -/
def initCmdMsg {μ : Type} (msg : Msg μ) (needWait needRetransmit needRsp : Bool) (rspPayloadLen : ℕ) : Msg μ :=
  { msg with
    needWait := needWait
    ackDone := if needWait then false else msg.ackDone
    needRetransmit := false
    retransmitTimes := if needRetransmit then cmdMsgRetransmitTimes else msg.retransmitTimes
    needRsp := needRsp
    rspPayloadLen := rspPayloadLen }

/-- `ctl->cmd_seq >= 0xf ? ctl->cmd_seq = 1 : ctl->cmd_seq++`. -/
def nextSeq (n : ℕ) : ℕ := if n ≥ 15 then 1 else n + 1

/-- `andes_get_cmd_msg_seq` on a queue with the numbers `used`: the next number that is not among them, `none`
if the loop does not find one. -/
def getCmdMsgSeq (used : List ℕ) : ℕ → ℕ → Option ℕ
  | 0, _ => none
  | n + 1, cmdSeq =>
    if nextSeq cmdSeq ∈ used then getCmdMsgSeq used n (nextSeq cmdSeq) else some (nextSeq cmdSeq)

/-- What `andes_rx_process_cmd_msg` does with the payload of a response: the `rsp_handler` copies it to the
result buffer if it is as long as the sender said; a response of another length is an error that is printed. -/
def rspReceived {μ : Type} (msg : Msg μ) (r : Response μ) : Msg μ :=
  if msg.rspPayloadLen = r.pktLen ∧ msg.rspPayloadLen ≠ 0 then { msg with filledBy := some r }
  else if msg.rspPayloadLen = 0 ∧ r.pktLen = 8 then msg
  else { msg with rspPayloadLen := r.pktLen }

namespace Sys

variable {κ μ : Type}

def raise (s : Sys κ μ) (f : Fault) : Sys κ μ := { s with fault := s.fault.or (some f) }

def forbidden (s : Sys κ μ) : Bool := !s.sendInBandCmd || s.nicNotExist || s.suspend

def isFreed (s : Sys κ μ) : Queue ⊕ μ → Bool
  | .inl _ => false
  | .inr m => decide (0 < (s.msg m).frees)

/-- The nodes `ns` are read or written. -/
def access (s : Sys κ μ) (ns : List (Queue ⊕ μ)) : Sys κ μ :=
  if ns.any s.isFreed then s.raise .freedMsg else s

variable [DecidableEq μ]

def free (s : Sys κ μ) (m : μ) : Sys κ μ :=
  let s := s.access [.inr m]
  { s with msg := Function.update s.msg m { s.msg m with frees := (s.msg m).frees + 1 } }

/-- A message enters the queue `q`, whose links are `links` then. -/
def enqueued (s : Sys κ μ) (q : Queue) (m : μ) (state : CmdMsgState) (links : Option (Links (Queue ⊕ μ))) :
    Sys κ μ :=
  let s := if (s.msg m).place = none then s else s.raise .linkedTwice
  match links with
  | none => s.raise .nullPointer
  | some links =>
    { s with
      links := links
      msg := Function.update s.msg m { s.msg m with state := state, place := some q } }

def queueTail (s : Sys κ μ) (q : Queue) (m : μ) (state : CmdMsgState) : Sys κ μ :=
  (s.access (.inr m :: (s.links.prev (.inl q)).toList)).enqueued q m state
    (s.links.addTail (.inl q) (.inr m))

def queueHead (s : Sys κ μ) (q : Queue) (m : μ) (state : CmdMsgState) : Sys κ μ :=
  (s.access (.inr m :: (s.links.next (.inl q)).toList)).enqueued q m state (s.links.add (.inl q) (.inr m))

/-- `andes_unlink_cmd_msg`: the queue `q` tells which lock to take. -/
def unlink (s : Sys κ μ) (q : Queue) (m : μ) : Sys κ μ :=
  let s := s.access (.inr m :: s.links.around (.inr m))
  let s := if (s.msg m).place = some q then s else s.raise .wrongQueue
  match s.links.del (.inr m) with
  | none => s.raise .nullPointer
  | some links =>
    { s with links := links, msg := Function.update s.msg m { s.msg m with place := none } }

def dequeue (s : Sys κ μ) (q : Queue) : Sys κ μ × Option μ :=
  match s.links.next (.inl q) with
  | none => (s.raise .nullPointer, none)
  | some (.inl _) => (s, none)
  | some (.inr m) => (s.unlink q m, some m)

/-- The messages of the queue `q` as a loop over it meets them. -/
def items (s : Sys κ μ) (q : Queue) : Option (List μ) := s.links.members q (s.allocCmdMsg + 1)

variable [DecidableEq κ]

def leave (s : Sys κ μ) (k : κ) : Sys κ μ :=
  { s with mcuAtomic := s.mcuAtomic + 1, loc := Function.update s.loc k .idle }

/-- Behind `andes_dequeue_and_kick_out_cmd_msgs`. -/
def afterKick (s : Sys κ μ) (k : κ) (m : μ) (w : Bool) : Sys κ μ :=
  if w then { s with loc := Function.update s.loc k (.waiting m) } else s.leave k

/-- `andes_alloc_cmd_msg` and `andes_init_cmd_msg`, and `andes_send_cmd_msg` is called. -/
def send (s : Sys κ μ) (k : κ) (m : μ) (wait : Bool) (rspPayloadLen : ℕ) : Sys κ μ :=
  { s with
    allocCmdMsg := s.allocCmdMsg + 1
    msg := Function.update s.msg m
      (initCmdMsg { Msg.blank with allocated := true } wait wait wait rspPayloadLen)
    loc := Function.update s.loc k (.called m) }

/-- `RTMP_SEM_EVENT_WAIT`; what it returns is only kept in `ret`. -/
def enter (s : Sys κ μ) (k : κ) (m : μ) (interrupted : Bool) : Sys κ μ :=
  if interrupted then
    { s with ret := Function.update s.ret k eintr, loc := Function.update s.loc k (.entered m) }
  else if 0 < s.mcuAtomic then
    { s with
      mcuAtomic := s.mcuAtomic - 1
      ret := Function.update s.ret k 0
      loc := Function.update s.loc k (.entered m) }
  else s

def check (s : Sys κ μ) (k : κ) (m : μ) : Sys κ μ :=
  if s.forbidden then
    { (s.free m).leave k with ret := Function.update s.ret k ndisStatusFailure }
  else
    { s.queueTail .txq m .txStart with loc := Function.update s.loc k (.kicking m (s.msg m).needWait) }

/-- A message is taken out of `txq`, and dropped if the adapter must not send. -/
def take (s : Sys κ μ) (k : κ) (m : μ) (w : Bool) : Sys κ μ :=
  match s.dequeue .txq with
  | (s', none) => s'.afterKick k m w
  | (s', some x) =>
    if s'.forbidden then
      if (s'.msg x).needRsp then s' else s'.free x
    else { s' with loc := Function.update s'.loc k (.took m w x) }

/-- A message that finds another one in `ackq` goes back to `txq`. -/
def test (s : Sys κ μ) (k : κ) (m : μ) (w : Bool) (x : μ) : Sys κ μ :=
  match s.items .ackq with
  | none => s.raise .nullPointer
  | some [] => { s with loc := Function.update s.loc k (.number m w x) }
  | some (y :: ys) =>
    { (s.access ((y :: ys).map .inr)).queueHead .txq x (s.msg x).state with
      loc := Function.update s.loc k (.kicking m w) }

def setSeq (s : Sys κ μ) (k : κ) (m : μ) (w : Bool) (x : μ) (seq : ℕ) : Sys κ μ :=
  { s with
    msg := Function.update s.msg x { s.msg x with seq := seq }
    loc := Function.update s.loc k (.fill m w x) }

/-- The number of a message that wants a response is one that no message in `ackq` has. -/
def number (s : Sys κ μ) (k : κ) (m : μ) (w : Bool) (x : μ) : Sys κ μ :=
  if (s.msg x).needRsp then
    match s.items .ackq with
    | none => s.raise .nullPointer
    | some ys =>
      match getCmdMsgSeq (ys.map fun y => (s.msg y).seq) 15 s.cmdSeq with
      | none => s
      | some seq => { (s.access (ys.map .inr)).setSeq k m w x seq with cmdSeq := seq }
  else s.setSeq k m w x 0

def link (s : Sys κ μ) (k : κ) (m : μ) (w : Bool) (x : μ) : Sys κ μ :=
  let s := if (s.msg x).needRsp then s.queueTail .ackq x .waitCmdOutAndAck else
    s.queueTail .kickq x .waitCmdOut
  if s.mcuInit then { s with loc := Function.update s.loc k (.linked m w x) } else s.afterKick k m w

/-- `RTUSB_SUBMIT_URB`, which refuses a URB that is still active. -/
def submit (s : Sys κ μ) (k : κ) (m : μ) (w : Bool) (x : μ) (accepted : Bool) : Sys κ μ :=
  if accepted = true ∧ (s.msg x).urb = .idle then
    { s with
      msg := Function.update s.msg x { s.msg x with urb := .active, submitted := true }
      loc := Function.update s.loc k (.kicking m w) }
  else { s with loc := Function.update s.loc k (.refused m w x) }

def refuse (s : Sys κ μ) (k : κ) (m : μ) (w : Bool) (x : μ) : Sys κ μ :=
  let s := if (s.msg x).needRsp then s.unlink .ackq x else s.unlink .kickq x
  { s with loc := Function.update s.loc k (.failed m w x) }

def fail (s : Sys κ μ) (k : κ) (m : μ) (w : Bool) (x : μ) : Sys κ μ :=
  if (s.msg x).needRsp then
    let s := s.access [.inr x]
    { s with
      msg := Function.update s.msg x { s.msg x with state := .txKickoutFail, ackDone := true }
    }.afterKick k m w
  else (s.queueTail .txDoneq x .txKickoutFail).afterKick k m w

def wake (s : Sys κ μ) (k : κ) (m : μ) : Sys κ μ :=
  if (s.msg m).ackDone then
    let s := s.access [.inr m]
    if (s.msg m).state = .txKickoutFail then
      { s with
        msg := Function.update s.msg m
          { s.msg m with ackDone := false, retransmitTimes := (s.msg m).retransmitTimes - 1 }
        loc := Function.update s.loc k (.finish m .txKickoutFail) }
    else
      { s with
        msg := Function.update s.msg m { s.msg m with ackDone := false, retransmitTimes := 0 }
        loc := Function.update s.loc k (.finish m .txDone) }
  else s

def giveUp (s : Sys κ μ) (k : κ) (m : μ) : Sys κ μ :=
  let s := s.access [.inr m]
  { s with
    msg := Function.update s.msg m
      { s.msg m with retransmitTimes := (s.msg m).retransmitTimes - 1 }
    loc := Function.update s.loc k (.finish m .txTimeoutFail) }

def look (s : Sys κ μ) (k : κ) (m : μ) : Sys κ μ :=
  if s.mcuInit then
    let s := s.access [.inr m]
    match (s.msg m).state with
    | .waitCmdOutAndAck => { s with loc := Function.update s.loc k (.kill m) }
    | .waitAck => { s with loc := Function.update s.loc k (.unlink m) }
    | _ => s.giveUp k m
  else s.giveUp k m

/-- The message is handed to `tx_doneq`, or sent once more if it wants that. -/
def finish (s : Sys κ μ) (k : κ) (m : μ) (state : CmdMsgState) : Sys κ μ :=
  if s.mcuInit then
    let s := s.access [.inr m]
    if (s.msg m).needRetransmit = true ∧ 0 < (s.msg m).retransmitTimes then
      { { s with msg := Function.update s.msg m { s.msg m with ackDone := false }
        }.queueHead .txq m .txRetransmit with loc := Function.update s.loc k (.kicking m true) }
    else (s.queueTail .txDoneq m state).leave k
  else (s.free m).leave k

omit [DecidableEq κ] in
/-- `usb_kick_out_cmd_msg_complete` up to the end of its first locked section. -/
def complete (s : Sys κ μ) (m : μ) (ok : Bool) : Sys κ μ :=
  let s := s.access [.inr m]
  let setUrb (s : Sys κ μ) (urb : Urb) : Sys κ μ :=
    { s with msg := Function.update s.msg m { s.msg m with urb := urb } }
  if s.mcuInit then
    if (s.msg m).needRsp then
      if ok then
        { s with msg := Function.update s.msg m { s.msg m with state := .waitAck, urb := .idle } }
      else setUrb (s.unlink .ackq m) (.unlinked false)
    else setUrb (s.unlink .kickq m) (.unlinked ok)
  else setUrb s .idle

omit [DecidableEq κ] in
def handled (s : Sys κ μ) (m : μ) (ok : Bool) : Sys κ μ :=
  if (s.msg m).needRsp then
    let s := s.access [.inr m]
    { s with msg := Function.update s.msg m { s.msg m with state := .txKickoutFail, urb := .marked } }
  else
    let s := s.queueTail .txDoneq m (if ok then .txDone else .txKickoutFail)
    { s with msg := Function.update s.msg m { s.msg m with urb := .idle } }

omit [DecidableEq κ] in
/-- `andes_rx_process_cmd_msg`: the first message in `ackq` with the number of the response is taken out. -/
def rxProcess (s : Sys κ μ) (r : Response μ) : Sys κ μ :=
  match s.items .ackq with
  | none => s.raise .nullPointer
  | some ys =>
    let s := s.access (ys.map .inr)
    match ys.find? fun y => (s.msg y).seq = r.cmdSeq with
    | none => s
    | some m =>
      let s := s.unlink .ackq m
      { s with
        msg := Function.update s.msg m { s.msg m with answeredBy := some r }
        bh := .responding m r }

omit [DecidableEq κ] in
def respond (s : Sys κ μ) (m : μ) (r : Response μ) : Sys κ μ :=
  let s := s.access [.inr m]
  let s := { s with msg := Function.update s.msg m (rspReceived (s.msg m) r) }
  if (s.msg m).needWait then
    { s with msg := Function.update s.msg m { s.msg m with ackDone := true }, bh := .rx }
  else { s.free m with bh := .rx }

/-- The states in which the tasklet frees a message that it finds in `tx_doneq`. -/
def disposable : CmdMsgState → Bool
  | .txDone | .txKickoutFail | .txTimeoutFail => true
  | _ => false

omit [DecidableEq κ] in
def reap (s : Sys κ μ) (m : μ) : Sys κ μ :=
  let s := s.access [.inr m]
  if disposable (s.msg m).state then { s.free m with bh := .tx } else { s with bh := .tx }

/-- One step; a step of a context of execution that is not at that place changes nothing. -/
def step (s : Sys κ μ) : Op κ μ → Sys κ μ
  | .send k m wait rspPayloadLen =>
    if s.loc k = .idle ∧ (s.msg m).allocated = false then s.send k m wait rspPayloadLen else s
  | .enter k interrupted =>
    match s.loc k with
    | .called m => s.enter k m interrupted
    | _ => s
  | .check k =>
    match s.loc k with
    | .entered m => s.check k m
    | _ => s
  | .dequeue k =>
    match s.loc k with
    | .kicking m w => s.take k m w
    | _ => s
  | .test k =>
    match s.loc k with
    | .took m w x => s.test k m w x
    | _ => s
  | .number k =>
    match s.loc k with
    | .number m w x => s.number k m w x
    | _ => s
  | .link k =>
    match s.loc k with
    | .fill m w x => s.link k m w x
    | _ => s
  | .submit k accepted =>
    match s.loc k with
    | .linked m w x => s.submit k m w x accepted
    | _ => s
  | .refuse k =>
    match s.loc k with
    | .refused m w x => s.refuse k m w x
    | _ => s
  | .fail k =>
    match s.loc k with
    | .failed m w x => s.fail k m w x
    | _ => s
  | .wake k =>
    match s.loc k with
    | .waiting m => s.wake k m
    | _ => s
  | .expire k =>
    match s.loc k with
    | .waiting m =>
      if (s.msg m).ackDone then s else
        { s with
          ret := Function.update s.ret k ndisStatusFailure
          loc := Function.update s.loc k (.expired m) }
    | _ => s
  | .look k =>
    match s.loc k with
    | .expired m => s.look k m
    | _ => s
  -- `RTUSB_UNLINK_URB` cancels the URB and comes back when its handler is through
  | .kill k =>
    match s.loc k with
    | .kill m => { s with loc := Function.update s.loc k (.killing m) }
    | _ => s
  | .killed k =>
    match s.loc k with
    | .killing m => if (s.msg m).urb = .idle then s.giveUp k m else s
    | _ => s
  | .unlink k =>
    match s.loc k with
    | .unlink m => (s.unlink .ackq m).giveUp k m
    | _ => s
  | .finish k =>
    match s.loc k with
    | .finish m state => s.finish k m state
    | _ => s
  | .complete m ok => if (s.msg m).urb = .active then s.complete m ok else s
  | .handled m =>
    match (s.msg m).urb with
    | .unlinked ok => s.handled m ok
    | _ => s
  | .signal m =>
    if (s.msg m).urb = .marked then
      let s := s.access [.inr m]
      { s with msg := Function.update s.msg m { s.msg m with ackDone := true, urb := .idle } }
    else s
  | .receive r => { s with rxDoneq := s.rxDoneq ++ [r] }
  | .bhStart => if s.bh = .idle then { s with bh := .rx } else s
  | .bhRx =>
    match s.bh, s.rxDoneq with
    | .rx, [] => { s with bh := .tx }
    | .rx, r :: rs => { s with rxDoneq := rs }.rxProcess r
    | _, _ => s
  | .bhRespond =>
    match s.bh with
    | .responding m r => s.respond m r
    | _ => s
  | .bhTx =>
    match s.bh with
    | .tx =>
      match s.dequeue .txDoneq with
      | (s', none) => { s' with bh := .idle }
      | (s', some m) => { s' with bh := .reaping m }
    | _ => s
  | .bhFree =>
    match s.bh with
    | .reaping m => s.reap m
    | _ => s
  | .flags sendInBandCmd nicNotExist suspend =>
    { s with sendInBandCmd := sendInBandCmd, nicNotExist := nicNotExist, suspend := suspend }

end Sys

end Mt7610u.Mcu
