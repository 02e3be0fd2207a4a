import Mt7610u.Lib.Bytes
import Mt7610u.Lib.Runs
import Mt7610u.Mlme.StateMachine

/-! # Dispatching MLME messages

Received frames and internal messages go through one queue to the state machines of the station.
`MsgTypeSubst` maps a frame to a machine and a message number; `MlmeHandler` takes the messages out and
has the machine perform the action for its current state. The index into the machine's table is not
checked there. -/

namespace Mt7610u.Mlme.Dispatch

open Lib Lib.Runs

inductive Machine
  | assoc
  | auth
  | authRsp
  | sync
  | wpaPsk
  | act
  | wpa
  deriving DecidableEq

inductive Func
  | drop
  | mlmeAssocReqAction
  | mlmeReassocReqAction
  | mlmeDisassocReqAction
  | peerDisassocAction
  | peerAssocRspAction
  | peerReassocRspAction
  | assocTimeoutAction
  | reassocTimeoutAction
  | disassocTimeoutAction
  | invalidStateWhenAssoc
  | invalidStateWhenReassoc
  | invalidStateWhenDisassociate
  | mlmeAuthReqAction
  | peerAuthRspAtSeq2Action
  | peerAuthRspAtSeq4Action
  | authTimeoutAction
  | invalidStateWhenAuth
  | peerDeauthAction
  | mlmeScanReqAction
  | mlmeForceScanReqAction
  | mlmeJoinReqAction
  | mlmeForceJoinReqAction
  | mlmeStartReqAction
  | peerBeacon
  | peerProbeReqAction
  | peerBeaconAtJoinAction
  | beaconTimeoutAtJoinAction
  | peerBeaconAtScanAction
  | scanTimeoutAction
  | invalidStateWhenStart
  | wpaEAPPacketAction
  | wpaEAPOLStartAction
  | wpaEAPOLLogoffAction
  | wpaEAPOLKeyAction
  | wpaEAPOLASFAlertAction
  | peerSpectrumAction
  | peerQOSAction
  | reservedAction
  | peerBAAction
  | peerHTAction
  | mlmeADDBAAction
  | mlmeDELBAAction
  | peerPublicAction
  | peerRMAction
  | mlmeQOSAction
  | mlmeDLSAction
  | mlmeInvalidAction
  deriving DecidableEq

/-! ### States and messages -/

def assocIdle : ℕ := 0
def assocWaitRsp : ℕ := 1
def reassocWaitRsp : ℕ := 2
def disassocWaitRsp : ℕ := 3

def mt2MlmeAssocReq : ℕ := 0
def mt2MlmeReassocReq : ℕ := 1
def mt2MlmeDisassocReq : ℕ := 2
def mt2PeerDisassocReq : ℕ := 3
def mt2PeerAssocReq : ℕ := 4
def mt2PeerAssocRsp : ℕ := 5
def mt2PeerReassocReq : ℕ := 6
def mt2PeerReassocRsp : ℕ := 7
def mt2DisassocTimeout : ℕ := 8
def mt2AssocTimeout : ℕ := 9
def mt2ReassocTimeout : ℕ := 10

def authReqIdle : ℕ := 0
def authWaitSeq2 : ℕ := 1
def authWaitSeq4 : ℕ := 2

def mt2MlmeAuthReq : ℕ := 0
def mt2PeerAuthEven : ℕ := 1
def mt2AuthTimeout : ℕ := 2

def authRspIdle : ℕ := 0
def authRspWaitChal : ℕ := 1

def mt2PeerAuthOdd : ℕ := 1
def mt2PeerDeauth : ℕ := 2

def syncIdle : ℕ := 0
def joinWaitBeacon : ℕ := 1
def scanListen : ℕ := 2
def scanPending : ℕ := 3

def mt2MlmeScanReq : ℕ := 0
def mt2MlmeJoinReq : ℕ := 1
def mt2MlmeStartReq : ℕ := 2
def mt2PeerBeacon : ℕ := 3
def mt2PeerProbeRsp : ℕ := 4
def mt2PeerAtim : ℕ := 5
def mt2ScanTimeout : ℕ := 6
def mt2BeaconTimeout : ℕ := 7
def mt2PeerProbeReq : ℕ := 9
def mt2MlmeForceJoinReq : ℕ := 10
def mt2MlmeForceScanReq : ℕ := 11

def actIdle : ℕ := 0

/-- `MAX_IEEE_STD_CATE`, also `MAX_PEER_CATE_MSG`. -/
def maxIeeeStdCate : ℕ := 17

def mt2PeerSpectrumCate : ℕ := 0
def mt2PeerQosCate : ℕ := 1
def mt2PeerDlsCate : ℕ := 2
def mt2PeerBaCate : ℕ := 3
def mt2PeerPublicCate : ℕ := 4
def mt2PeerRmCate : ℕ := 5
def mt2PeerHtCate : ℕ := 7
def mt2MlmeAddBaCate : ℕ := maxIeeeStdCate + 1
def mt2MlmeOriDelbaCate : ℕ := maxIeeeStdCate + 2
def mt2MlmeRecDelbaCate : ℕ := maxIeeeStdCate + 3
def mt2MlmeQosCate : ℕ := maxIeeeStdCate + 4
def mt2MlmeDlsCate : ℕ := maxIeeeStdCate + 5
def mt2ActInvalid : ℕ := maxIeeeStdCate + 6

def wpaPtk : ℕ := 0

def mt2EAPPacket : ℕ := 0
def mt2EAPOLStart : ℕ := 1
def mt2EAPOLLogoff : ℕ := 2
def mt2EAPOLKey : ℕ := 3
def mt2EAPOLASFAlert : ℕ := 4

/-- `MT2_RESET_CONF`, which restarts the machines whatever machine it is for. -/
def mt2ResetConf : ℕ := 45

/-! ### The tables -/

/-- `AssocStateMachineInit`. -/
def assocConfig : Config Func where
  nrState := 4
  nrMsg := 11
  defFunc := .drop
  initState := assocIdle
  base := 0
  actions := [
    ⟨assocIdle, mt2MlmeAssocReq, .mlmeAssocReqAction⟩,
    ⟨assocIdle, mt2MlmeReassocReq, .mlmeReassocReqAction⟩,
    ⟨assocIdle, mt2MlmeDisassocReq, .mlmeDisassocReqAction⟩,
    ⟨assocIdle, mt2PeerDisassocReq, .peerDisassocAction⟩,
    ⟨assocWaitRsp, mt2MlmeAssocReq, .invalidStateWhenAssoc⟩,
    ⟨assocWaitRsp, mt2MlmeReassocReq, .invalidStateWhenReassoc⟩,
    ⟨assocWaitRsp, mt2MlmeDisassocReq, .invalidStateWhenDisassociate⟩,
    ⟨assocWaitRsp, mt2PeerDisassocReq, .peerDisassocAction⟩,
    ⟨assocWaitRsp, mt2PeerAssocRsp, .peerAssocRspAction⟩,
    -- an AP that answers an association request with a reassociation response
    ⟨assocWaitRsp, mt2PeerReassocRsp, .peerAssocRspAction⟩,
    ⟨assocWaitRsp, mt2AssocTimeout, .assocTimeoutAction⟩,
    ⟨reassocWaitRsp, mt2MlmeAssocReq, .invalidStateWhenAssoc⟩,
    ⟨reassocWaitRsp, mt2MlmeReassocReq, .invalidStateWhenReassoc⟩,
    ⟨reassocWaitRsp, mt2MlmeDisassocReq, .invalidStateWhenDisassociate⟩,
    ⟨reassocWaitRsp, mt2PeerDisassocReq, .peerDisassocAction⟩,
    ⟨reassocWaitRsp, mt2PeerReassocRsp, .peerReassocRspAction⟩,
    ⟨reassocWaitRsp, mt2PeerAssocRsp, .peerReassocRspAction⟩,
    ⟨reassocWaitRsp, mt2ReassocTimeout, .reassocTimeoutAction⟩,
    ⟨disassocWaitRsp, mt2MlmeAssocReq, .invalidStateWhenAssoc⟩,
    ⟨disassocWaitRsp, mt2MlmeReassocReq, .invalidStateWhenReassoc⟩,
    ⟨disassocWaitRsp, mt2MlmeDisassocReq, .invalidStateWhenDisassociate⟩,
    ⟨disassocWaitRsp, mt2PeerDisassocReq, .peerDisassocAction⟩,
    ⟨disassocWaitRsp, mt2DisassocTimeout, .disassocTimeoutAction⟩]

/-- `AuthStateMachineInit`. -/
def authConfig : Config Func where
  nrState := 3
  nrMsg := 3
  defFunc := .drop
  initState := authReqIdle
  base := 0
  actions := [
    ⟨authReqIdle, mt2MlmeAuthReq, .mlmeAuthReqAction⟩,
    ⟨authWaitSeq2, mt2MlmeAuthReq, .invalidStateWhenAuth⟩,
    ⟨authWaitSeq2, mt2PeerAuthEven, .peerAuthRspAtSeq2Action⟩,
    ⟨authWaitSeq2, mt2AuthTimeout, .authTimeoutAction⟩,
    ⟨authWaitSeq4, mt2MlmeAuthReq, .invalidStateWhenAuth⟩,
    ⟨authWaitSeq4, mt2PeerAuthEven, .peerAuthRspAtSeq4Action⟩,
    ⟨authWaitSeq4, mt2AuthTimeout, .authTimeoutAction⟩]

/-- `AuthRspStateMachineInit`. -/
def authRspConfig : Config Func where
  nrState := 2
  nrMsg := 3
  defFunc := .drop
  initState := authRspIdle
  base := 0
  actions := [
    ⟨authRspIdle, mt2PeerDeauth, .peerDeauthAction⟩,
    ⟨authRspWaitChal, mt2PeerDeauth, .peerDeauthAction⟩]

/-- `SyncStateMachineInit`. -/
def syncConfig : Config Func where
  nrState := 4
  nrMsg := 12
  defFunc := .drop
  initState := syncIdle
  base := 0
  actions := [
    ⟨syncIdle, mt2MlmeScanReq, .mlmeScanReqAction⟩,
    ⟨syncIdle, mt2MlmeForceScanReq, .mlmeForceScanReqAction⟩,
    ⟨syncIdle, mt2MlmeJoinReq, .mlmeJoinReqAction⟩,
    ⟨syncIdle, mt2MlmeForceJoinReq, .mlmeForceJoinReqAction⟩,
    ⟨syncIdle, mt2MlmeStartReq, .mlmeStartReqAction⟩,
    ⟨syncIdle, mt2PeerBeacon, .peerBeacon⟩,
    ⟨syncIdle, mt2PeerProbeReq, .peerProbeReqAction⟩,
    ⟨joinWaitBeacon, mt2MlmeJoinReq, .mlmeJoinReqAction⟩,
    ⟨joinWaitBeacon, mt2MlmeStartReq, .invalidStateWhenStart⟩,
    ⟨joinWaitBeacon, mt2PeerBeacon, .peerBeaconAtJoinAction⟩,
    ⟨joinWaitBeacon, mt2BeaconTimeout, .beaconTimeoutAtJoinAction⟩,
    ⟨joinWaitBeacon, mt2PeerProbeRsp, .peerBeaconAtScanAction⟩,
    ⟨scanListen, mt2MlmeJoinReq, .mlmeJoinReqAction⟩,
    ⟨scanListen, mt2MlmeStartReq, .invalidStateWhenStart⟩,
    ⟨scanListen, mt2PeerBeacon, .peerBeaconAtScanAction⟩,
    ⟨scanListen, mt2PeerProbeRsp, .peerBeaconAtScanAction⟩,
    ⟨scanListen, mt2ScanTimeout, .scanTimeoutAction⟩,
    ⟨scanPending, mt2MlmeScanReq, .mlmeScanReqAction⟩,
    ⟨scanPending, mt2PeerBeacon, .peerBeacon⟩]

/-- `ActionStateMachineInit`. -/
def actConfig : Config Func where
  nrState := 1
  nrMsg := maxIeeeStdCate + 7
  defFunc := .drop
  initState := actIdle
  base := 0
  actions := [
    ⟨actIdle, mt2PeerSpectrumCate, .peerSpectrumAction⟩,
    ⟨actIdle, mt2PeerQosCate, .peerQOSAction⟩,
    ⟨actIdle, mt2PeerDlsCate, .reservedAction⟩,
    ⟨actIdle, mt2PeerBaCate, .peerBAAction⟩,
    ⟨actIdle, mt2PeerHtCate, .peerHTAction⟩,
    ⟨actIdle, mt2MlmeAddBaCate, .mlmeADDBAAction⟩,
    ⟨actIdle, mt2MlmeOriDelbaCate, .mlmeDELBAAction⟩,
    ⟨actIdle, mt2MlmeRecDelbaCate, .mlmeDELBAAction⟩,
    ⟨actIdle, mt2PeerPublicCate, .peerPublicAction⟩,
    ⟨actIdle, mt2PeerRmCate, .peerRMAction⟩,
    ⟨actIdle, mt2MlmeQosCate, .mlmeQOSAction⟩,
    ⟨actIdle, mt2MlmeDlsCate, .mlmeDLSAction⟩,
    ⟨actIdle, mt2ActInvalid, .mlmeInvalidAction⟩]

/-- `WpaStateMachineInit`. -/
def wpaConfig : Config Func where
  nrState := 1
  nrMsg := 5
  defFunc := .drop
  initState := wpaPtk
  base := 0
  actions := [
    ⟨wpaPtk, mt2EAPPacket, .wpaEAPPacketAction⟩,
    ⟨wpaPtk, mt2EAPOLStart, .wpaEAPOLStartAction⟩,
    ⟨wpaPtk, mt2EAPOLLogoff, .wpaEAPOLLogoffAction⟩,
    ⟨wpaPtk, mt2EAPOLKey, .wpaEAPOLKeyAction⟩,
    ⟨wpaPtk, mt2EAPOLASFAlert, .wpaEAPOLASFAlertAction⟩]

/-- The tables. `WpaPskMachine` is never set up: it has no states, no messages and no table. -/
def config : Machine → Config Func
  | .assoc => assocConfig
  | .auth => authConfig
  | .authRsp => authRspConfig
  | .sync => syncConfig
  | .wpaPsk => ⟨0, 0, .drop, 0, 0, []⟩
  | .act => actConfig
  | .wpa => wpaConfig

theorem config_wf (m : Machine) : (config m).Wf := by
  cases m <;> exact ⟨by decide, by decide, by decide⟩

/-! ### Messages -/

/-- A received frame: the type and the subtype of its frame control, and the bytes behind the header. -/
structure Frame where
  type : ℕ
  subType : ℕ
  octet : ℕ → Byte

def wpaMsgTypeSubst (eapType : ℕ) : Option ℕ :=
  match eapType with
  | 0 => some mt2EAPPacket
  | 1 => some mt2EAPOLStart
  | 2 => some mt2EAPOLLogoff
  | 3 => some mt2EAPOLKey
  | 4 => some mt2EAPOLASFAlert
  | _ => none

def Frame.ushort (f : Frame) (i : ℕ) : ℕ := (f.octet i).toNat + 256 * (f.octet (i + 1)).toNat

/-- `MsgTypeSubst`: the machine and the message number for a frame, if it is accepted. An authentication
frame with an even sequence number and another algorithm leaves them as they were given. -/
def msgTypeSubst (f : Frame) (given : ℕ × ℕ) : Option (ℕ × ℕ) :=
  if f.type = 2 then (wpaMsgTypeSubst (f.octet 9).toNat).map fun msgType => (23, msgType)
  else
    match f.subType with
    | 0 => some (1, mt2PeerAssocReq)
    | 1 => some (1, mt2PeerAssocRsp)
    | 2 => some (1, mt2PeerReassocReq)
    | 3 => some (1, mt2PeerReassocRsp)
    | 4 => some (4, mt2PeerProbeReq)
    | 5 => some (4, mt2PeerProbeRsp)
    | 8 => some (4, mt2PeerBeacon)
    | 9 => some (4, mt2PeerAtim)
    | 10 => some (1, mt2PeerDisassocReq)
    | 11 =>
      let seq := f.ushort 2
      let alg := f.ushort 0
      if seq = 1 ∨ seq = 3 then some (3, mt2PeerAuthOdd)
      else if seq = 2 ∨ seq = 4 then
        if alg = 0 ∨ alg = 1 then some (2, mt2PeerAuthEven) else some given
      else none
    | 12 => some (3, mt2PeerDeauth)
    | 13 | 14 =>
      let category := (f.octet 0).toNat &&& 0x7f
      if maxIeeeStdCate < category then some (9, mt2ActInvalid) else some (9, category)
    | _ => none

/-- What `MlmeEnqueueForRecv` enters for a frame. -/
def mlmeEnqueueForRecv (f : Frame) : Option (ℕ × ℕ) := msgTypeSubst f (0xff, 0)

def posted : List (ℕ × ℕ) := [
  (1, mt2MlmeAssocReq), (1, mt2MlmeReassocReq), (1, mt2MlmeDisassocReq), (1, mt2AssocTimeout),
  (1, mt2ReassocTimeout), (1, mt2DisassocTimeout), (2, mt2MlmeAuthReq), (2, mt2AuthTimeout),
  (4, mt2MlmeScanReq), (4, mt2MlmeForceScanReq), (4, mt2MlmeJoinReq), (4, mt2MlmeForceJoinReq),
  (4, mt2MlmeStartReq), (4, mt2ScanTimeout), (4, mt2BeaconTimeout), (9, mt2MlmeAddBaCate),
  (23, mt2EAPOLStart)]

/-- The messages that reach the queue: from the air, posted, or for the control machine. -/
def Arrives (e : ℕ × ℕ) : Prop := (∃ f, mlmeEnqueueForRecv f = some e) ∨ e ∈ posted ∨ e.1 = 5

inductive Target
  | table (m : Machine)
  | cntl
  | illegal
  deriving DecidableEq

/-- The switch of `MlmeHandler`. -/
def target (machine : ℕ) : Target :=
  match machine with
  | 1 => .table .assoc
  | 2 => .table .auth
  | 3 => .table .authRsp
  | 4 => .table .sync
  | 5 => .cntl
  | 6 => .table .wpaPsk
  | 9 => .table .act
  | 23 => .table .wpa
  | _ => .illegal

/-! ### Runs -/

/-- The states that `ScanNextChannel` and what it calls may leave the SYNC machine in. -/
def scanAssigns : List (Machine × ℕ) := [(.sync, syncIdle), (.sync, scanListen), (.sync, scanPending)]

/-- The assignments to `CurrState` in an action and what it calls. -/
def assigns : Func → List (Machine × ℕ)
  | .mlmeAssocReqAction => [(.assoc, assocIdle), (.assoc, assocWaitRsp)]
  | .mlmeReassocReqAction => [(.assoc, assocIdle), (.assoc, reassocWaitRsp)]
  | .mlmeDisassocReqAction => [(.assoc, assocIdle), (.assoc, disassocWaitRsp)]
  | .peerDisassocAction | .peerAssocRspAction | .peerReassocRspAction | .assocTimeoutAction
  | .reassocTimeoutAction | .disassocTimeoutAction | .invalidStateWhenAssoc | .invalidStateWhenReassoc
  | .invalidStateWhenDisassociate => [(.assoc, assocIdle)]
  | .mlmeAuthReqAction => [(.auth, authWaitSeq2), (.auth, authReqIdle)]
  | .peerAuthRspAtSeq2Action => [(.auth, authReqIdle), (.auth, authWaitSeq4)]
  | .peerAuthRspAtSeq4Action | .authTimeoutAction | .invalidStateWhenAuth => [(.auth, authReqIdle)]
  | .mlmeScanReqAction | .mlmeForceScanReqAction | .scanTimeoutAction => scanAssigns
  | .mlmeJoinReqAction | .mlmeForceJoinReqAction => [(.sync, joinWaitBeacon)]
  | .mlmeStartReqAction | .peerBeaconAtJoinAction | .beaconTimeoutAtJoinAction
  | .invalidStateWhenStart => [(.sync, syncIdle)]
  | _ => []

/-- The assignments outside the actions of a table: requests of the user that call `MlmeDisassocReqAction`
or `MlmeDeauthReqAction` or reset the ASSOC machine, and the scan timer. -/
def otherAssigns : List (Machine × ℕ) :=
  [(.assoc, assocIdle), (.assoc, disassocWaitRsp), (.auth, authReqIdle)] ++ scanAssigns

/-- `MLME_STRUCT`: the machines and the messages in the queue. -/
structure MlmeStruct where
  machine : Machine → StateMachine Func
  queue : List (ℕ × ℕ)

/-- After `MlmeInit`. -/
def init : MlmeStruct where
  machine := fun m => (config m).build
  queue := []

/-- Assigning `CurrState`. -/
def MlmeStruct.assign (s : MlmeStruct) (x : Machine × ℕ) : MlmeStruct :=
  { s with machine := Function.update s.machine x.1 { s.machine x.1 with currState := x.2 } }

/-- `MlmeRestartStateMachine`: the WPA machine is left out. -/
def MlmeStruct.restart (s : MlmeStruct) : MlmeStruct :=
  [(.assoc, assocIdle), (.auth, authReqIdle), (.authRsp, authRspIdle), (.sync, syncIdle),
    (.act, actIdle)].foldl MlmeStruct.assign s

/-- `StateMachinePerformAction`: what stands at the index, if it is in the table. -/
def MlmeStruct.action (s : MlmeStruct) (m : Machine) (msgType : ℕ) : Option (Option Func) :=
  (s.machine m).transFunc[actionIndex (s.machine m) (s.machine m).currState msgType]?

/-- A turn of the loop of `MlmeHandler`. Of the assigned states, those that the action can assign are
taken. -/
def MlmeStruct.handle (s : MlmeStruct) (assigned : List (Machine × ℕ)) : MlmeStruct :=
  match s.queue with
  | [] => s
  | e :: rest =>
    if e.2 = mt2ResetConf then MlmeStruct.restart { s with queue := rest }
    else
      match target e.1 with
      | .table m =>
        match s.action m e.2 with
        | some (some f) => (assigned.filter (· ∈ assigns f)).foldl MlmeStruct.assign { s with queue := rest }
        | _ => { s with queue := rest }
      | _ => { s with queue := rest }

/-- The steps. The states that an action assigns depend on what else it finds, so they come with the
step. -/
inductive Op
  | recv (f : Frame)
  | post (e : ℕ × ℕ)
  | handle (assigned : List (Machine × ℕ))
  | other (assigned : List (Machine × ℕ))

def step (s : MlmeStruct) (op : Op) : MlmeStruct :=
  match op with
  | .recv f =>
    match mlmeEnqueueForRecv f with
    | some e => { s with queue := s.queue ++ [e] }
    | none => s
  | .post e => if e ∈ posted ∨ e.1 = 5 then { s with queue := s.queue ++ [e] } else s
  | .handle assigned => s.handle assigned
  | .other assigned => (assigned.filter (· ∈ otherAssigns)).foldl MlmeStruct.assign s

/-! ### Safety -/

/-- A message for a machine with a table has a number of that machine. -/
def Fits (e : ℕ × ℕ) : Prop :=
  match target e.1 with
  | .table m => (config m).IsMsg e.2
  | _ => True

instance (e : ℕ × ℕ) : Decidable (Fits e) := by
  unfold Fits
  split <;> infer_instance

theorem fits_wpa {eapType t : ℕ} (h : wpaMsgTypeSubst eapType = some t) : Fits (23, t) := by
  unfold wpaMsgTypeSubst at h
  split at h <;> first | (obtain rfl := Option.some.inj h; decide) | exact absurd h (by simp)

theorem fits_of_frame {f : Frame} {e : ℕ × ℕ} (h : mlmeEnqueueForRecv f = some e) : Fits e := by
  unfold mlmeEnqueueForRecv msgTypeSubst at h
  by_cases hdata : f.type = 2
  · rw [if_pos hdata] at h
    obtain ⟨t, ht, rfl⟩ := Option.map_eq_some_iff.1 h
    exact fits_wpa ht
  rw [if_neg hdata] at h
  split at h
  case h_10 =>
    -- authentication frames; the machine of an unknown algorithm is illegal
    simp only at h
    split_ifs at h <;> obtain rfl := Option.some.inj h <;> decide
  case h_12 | h_13 =>
    simp only at h
    split_ifs at h with hcat
    · obtain rfl := Option.some.inj h
      decide
    · obtain rfl := Option.some.inj h
      have hle : (f.octet 0).toNat &&& 0x7f ≤ maxIeeeStdCate := by omega
      refine ⟨Nat.zero_le _, ?_⟩
      show _ < 0 + (maxIeeeStdCate + 7)
      omega
  case h_14 => exact absurd h (by simp)
  all_goals
    obtain rfl := Option.some.inj h
    decide

theorem fits_of_arrives {e : ℕ × ℕ} (h : Arrives e) : Fits e := by
  rcases h with ⟨f, hf⟩ | h | h
  · exact fits_of_frame hf
  · have hall : ∀ e ∈ posted, Fits e := by decide
    exact hall e h
  · unfold Fits
    rw [h]
    trivial

def Placed (m : Machine) (S : StateMachine Func) : Prop :=
  ∃ st, S = { (config m).build with currState := st } ∧ (m ≠ .wpaPsk → st < (config m).nrState)

structure Inv (s : MlmeStruct) : Prop where
  placed : ∀ m, Placed m (s.machine m)
  arrived : ∀ e ∈ s.queue, Arrives e

def Valid (x : Machine × ℕ) : Prop := x.2 < (config x.1).nrState

instance (x : Machine × ℕ) : Decidable (Valid x) := inferInstanceAs (Decidable (_ < _))

theorem valid_assigns (f : Func) : ∀ x ∈ assigns f, Valid x := by
  cases f <;> decide

theorem Inv.assign {s : MlmeStruct} (h : Inv s) {x : Machine × ℕ} (hx : Valid x) : Inv (s.assign x) := by
  refine ⟨fun m => ?_, h.arrived⟩
  unfold MlmeStruct.assign
  by_cases hm : m = x.1
  · subst hm
    obtain ⟨st, hS, -⟩ := h.placed x.1
    refine ⟨x.2, ?_, fun _ => hx⟩
    show Function.update s.machine x.1 _ x.1 = _
    rw [Function.update_self, hS]
  · show Placed m (Function.update s.machine x.1 _ m)
    rw [Function.update_of_ne hm]
    exact h.placed m

theorem Inv.assignAll {l : List (Machine × ℕ)} (hl : ∀ x ∈ l, Valid x) :
    ∀ {s : MlmeStruct}, Inv s → Inv (l.foldl MlmeStruct.assign s) := by
  induction l with
  | nil => exact fun h => h
  | cons x l ih =>
    intro s h
    rw [List.foldl_cons]
    exact ih (fun y hy => hl y (List.mem_cons_of_mem x hy)) (h.assign (hl x List.mem_cons_self))

theorem Inv.filtered {s : MlmeStruct} (h : Inv s) (l : List (Machine × ℕ)) {good : List (Machine × ℕ)}
    (hgood : ∀ x ∈ good, Valid x) : Inv ((l.filter (· ∈ good)).foldl MlmeStruct.assign s) := by
  refine Inv.assignAll (fun x hx => ?_) h
  exact hgood x (of_decide_eq_true (List.mem_filter.1 hx).2)

theorem Inv.enqueue {s : MlmeStruct} (h : Inv s) {e : ℕ × ℕ} (he : Arrives e) :
    Inv { s with queue := s.queue ++ [e] } := by
  refine ⟨h.placed, fun x hx => ?_⟩
  rcases List.mem_append.1 hx with hx | hx
  · exact h.arrived x hx
  · rw [List.mem_singleton.1 hx]
    exact he

theorem Inv.handle {s : MlmeStruct} (h : Inv s) (assigned : List (Machine × ℕ)) : Inv (s.handle assigned) := by
  unfold MlmeStruct.handle
  cases hq : s.queue with
  | nil => exact h
  | cons e rest =>
    have hrest : Inv { s with queue := rest } :=
      ⟨h.placed, fun x hx => h.arrived x (by rw [hq]; exact List.mem_cons_of_mem e hx)⟩
    simp only
    split
    · exact Inv.assignAll (by decide) hrest
    · split
      · split
        · exact hrest.filtered assigned (valid_assigns _)
        · exact hrest
      · exact hrest

theorem Inv.step {s : MlmeStruct} (h : Inv s) (op : Op) : Inv (Dispatch.step s op) := by
  cases op with
  | recv f =>
    show Inv (match mlmeEnqueueForRecv f with
      | some e => { s with queue := s.queue ++ [e] }
      | none => s)
    cases hf : mlmeEnqueueForRecv f with
    | none => exact h
    | some e => exact h.enqueue (.inl ⟨f, hf⟩)
  | post e =>
    show Inv (if e ∈ posted ∨ e.1 = 5 then { s with queue := s.queue ++ [e] } else s)
    by_cases he : e ∈ posted ∨ e.1 = 5
    · rw [if_pos he]
      exact h.enqueue (.inr he)
    · rw [if_neg he]
      exact h
  | handle assigned => exact h.handle assigned
  | other assigned => exact h.filtered assigned (by decide)

theorem inv_run (ops : List Op) : Inv (run step init ops) := by
  have hinit : Inv init := by
    refine ⟨fun m => ⟨(config m).build.currState, rfl, ?_⟩, fun e he => absurd he (by simp [init])⟩
    cases m <;> decide
  exact run_invariant_all (fun s op h => h.step op) ops init hinit

/-- **Dispatch is safe.** In every reachable state, the messages in the queue are ones that arrive, and for
every message that can arrive, at a machine with a table, the index is in the table, and the function
found there is the one installed for the state and the message. -/
theorem dispatch_installed (ops : List Op) :
    (∀ e ∈ (run step init ops).queue, Arrives e) ∧
      ∀ e m, Arrives e → target e.1 = .table m →
        let S := (run step init ops).machine m
        actionIndex S S.currState e.2 < S.transFunc.length ∧
          (run step init ops).action m e.2 = some (some ((config m).installed S.currState e.2)) := by
  have h := inv_run ops
  refine ⟨h.arrived, fun e m he hm => ?_⟩
  have hfits := fits_of_arrives he
  unfold Fits at hfits
  rw [hm] at hfits
  obtain ⟨st, hS, hst⟩ := h.placed m
  have hpsk : m ≠ .wpaPsk := by
    rintro rfl
    exact absurd hfits.2 (Nat.not_lt_zero _)
  have hconf := transFunc_configured (config_wf m) (hst hpsk) hfits
  simp only [MlmeStruct.action, hS]
  exact hconf

def sampleBeacon : Frame where
  type := 0
  subType := 8
  octet := fun _ => 0#8

def sampleRun : List Op := [.post (4, mt2MlmeScanReq), .handle [(.sync, scanListen)], .recv sampleBeacon]

theorem dispatch_sampleRun :
    (run step init sampleRun).queue = [(4, mt2PeerBeacon)] ∧
      (run step init sampleRun).action .sync mt2PeerBeacon = some (some .peerBeaconAtScanAction) := by
  refine ⟨by decide, ?_⟩
  have h := (dispatch_installed sampleRun).2 (4, mt2PeerBeacon) .sync
    (.inl ⟨sampleBeacon, by decide⟩) rfl
  refine h.2.trans ?_
  decide

end Mt7610u.Mlme.Dispatch
