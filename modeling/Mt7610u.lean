import Mt7610u.Data.SoftDecryptAes
import Mt7610u.Crypto.AesCbc
import Mt7610u.Data.Wep
import Mt7610u.Lib.SerialNumber
import Mt7610u.Lib.Runs
import Mt7610u.Lib.Ring
import Mt7610u.Lib.Chain
import Mt7610u.Lib.DlList
import Mt7610u.Lib.Crc32
import Mt7610u.Lib.BlockHash
import Mt7610u.Lib.Roots
import Mt7610u.BlockAck.Reorder
import Mt7610u.BlockAck.Tables
import Mt7610u.BlockAck.Consistency
import Mt7610u.BlockAck.SessionSpec
import Mt7610u.BlockAck.Window
import Mt7610u.BlockAck.ReorderInv
import Mt7610u.BlockAck.Steps
import Mt7610u.BlockAck.ReorderRuns
import Mt7610u.BlockAck.Conservation
import Mt7610u.BlockAck.Delivery
import Mt7610u.Crypto.Arc4
import Mt7610u.Crypto.Aes
import Mt7610u.Crypto.AesInverse
import Mt7610u.Lib.Cbc
import Mt7610u.Lib.Cmac
import Mt7610u.Crypto.AesCmac
import Mt7610u.Crypto.Aes128
import Mt7610u.Crypto.KeyWrap
import Mt7610u.Crypto.BlockContext
import Mt7610u.Crypto.HashStandards
import Mt7610u.Crypto.Sha
import Mt7610u.Crypto.Md5
import Mt7610u.Wpa.Eapol
import Mt7610u.Wpa.Handshake
import Mt7610u.Wpa.Effects
import Mt7610u.Wpa.ReplayCounter
import Mt7610u.Wpa.KeyInstall
import Mt7610u.Wpa.Authenticity
import Mt7610u.Wpa.Rejection
import Mt7610u.Wpa.RoundTrip
import Mt7610u.Data.Ethernet
import Mt7610u.Data.Defragment
import Mt7610u.Data.Fragment
import Mt7610u.Data.Amsdu
import Mt7610u.Mlme.Queue
import Mt7610u.Mlme.StateMachine
import Mt7610u.Mlme.Dispatch
import Mt7610u.Mlme.BssEntry
import Mt7610u.Mlme.BssTable
import Mt7610u.Mgmt.MacTable
import Mt7610u.Mgmt.RequestTable
import Mt7610u.Usb.TxRing
import Mt7610u.Usb.Layout
import Mt7610u.Usb.Placement
import Mt7610u.Usb.RingInv
import Mt7610u.Usb.BulkOut
import Mt7610u.Usb.RingRuns
import Mt7610u.Usb.Recovery
import Mt7610u.Crypto.Ccm
import Mt7610u.Data.Ccmp
import Mt7610u.Task.CmdQueue
import Mt7610u.Task.TimerQueue
import Mt7610u.Usb.RxBuffer
import Mt7610u.Usb.BulkInRing
import Mt7610u.Usb.MgmtRing
import Mt7610u.Mcu.CmdMsg
import Mt7610u.Mcu.LifeCycle
import Mt7610u.Mcu.HandlerSteps
import Mt7610u.Mcu.LifeRuns
import Mt7610u.Mcu.Firmware
import Mt7610u.Mcu.Frames
import Mt7610u.Mcu.Matching
import Mt7610u.Mcu.ReadLoop
import Mt7610u.Mcu.MatchRuns
import Mt7610u.Efuse.Registers
import Mt7610u.Efuse.Store
import Mt7610u.Efuse.Write
import Mt7610u.Mgmt.BeaconElements
import Mt7610u.Mgmt.BeaconSanity
import Mt7610u.Mgmt.BeaconAgree
import Mt7610u.Lib.WordMemory
import Mt7610u.Asic.KeyTables
import Mt7610u.Asic.KeyTableRuns
import Mt7610u.Wpa.Countermeasures
import Mt7610u.BlockAck.TearDown
import Mt7610u.BlockAck.Grant
import Mt7610u.BlockAck.Tid
import Mt7610u.Mgmt.BeaconWalk
import Mt7610u.Mgmt.BeaconBounds
import Mt7610u.Mgmt.VariableIes
import Mt7610u.Mlme.BssCipher
import Mt7610u.Mlme.BssCipherSuites
import Mt7610u.Mlme.BssCipherParse
import Mt7610u.BlockAck.Account
import Mt7610u.Data.RxPath
import Mt7610u.Data.RxOwnership
import Mt7610u.Lib.Outcome
import Mt7610u.RateCtrl.Tables
import Mt7610u.RateCtrl.Support
import Mt7610u.RateCtrl.Entry
import Mt7610u.RateCtrl.Legacy
import Mt7610u.RateCtrl.Group
import Mt7610u.RateCtrl.Runs
import Mt7610u.RateCtrl.Links
import Mt7610u.RateCtrl.IndexBounds
import Mt7610u.RateCtrl.SupportedRates
import Mt7610u.Lib.Ccm
import Mt7610u.Crypto.CcmStandard
import Mt7610u.Lib.Fields
import Mt7610u.Wpa.RsnElement
import Mt7610u.Data.AmsduBounds
import Mt7610u.Data.Aralink
import Mt7610u.Data.RxLengths
import Mt7610u.Lib.ExchangeSort
import Mt7610u.Mlme.SsidSort
import Mt7610u.Mlme.SortFrame
import Mt7610u.Lib.Ledger
import Mt7610u.Data.TxQueue
import Mt7610u.Data.TxQueueRuns
import Mt7610u.Wpa.GtkExtraction
import Mt7610u.Data.RxPrivacy
import Mt7610u.Lib.LowBits
import Mt7610u.Crypto.Michael
import Mt7610u.Crypto.TkipMixKey
import Mt7610u.Mgmt.TimBitmap
import Mt7610u.Lib.Sweep
import Mt7610u.Mlme.ScanAging
import Mt7610u.Lib.Elements
import Mt7610u.Mgmt.AssocRsp
import Mt7610u.Mgmt.RsnStore
import Mt7610u.Mcu.CmdLoop
import Mt7610u.Mcu.CmdLoopRuns
import Mt7610u.Efuse.Device
import Mt7610u.Efuse.LoadFromBin
import Mt7610u.Efuse.LoadRuns
import Mt7610u.Efuse.FreeCount
import Mt7610u.Channel.Tables
import Mt7610u.Channel.BuildList
import Mt7610u.Channel.FromRegion
import Mt7610u.Channel.FromCountry
import Mt7610u.Channel.WellBuilt
import Mt7610u.Channel.Scan
import Mt7610u.Lib.Noted
import Mt7610u.Spectrum.Parser
import Mt7610u.Spectrum.Bounds
import Mt7610u.Spectrum.Builder
import Mt7610u.Spectrum.RoundTrip
import Mt7610u.Spectrum.Regulatory
import Mt7610u.Coex.TriggerEvents
import Mt7610u.Coex.IntolerantReport
import Mt7610u.Channel.Switch
import Mt7610u.Lib.RunningMax
import Mt7610u.Mlme.PeerBeacon
import Mt7610u.Mlme.IbssMerge
import Mt7610u.Lib.Lines
import Mt7610u.Profile.KeyParameter
import Mt7610u.Profile.Lookup
import Mt7610u.Mlme.Connect
import Mt7610u.Mlme.CandidateRuns
import Mt7610u.Lib.BlendedMean
import Mt7610u.Data.RssiSample
import Mt7610u.RateCtrl.PeerRecord
import Mt7610u.RateCtrl.TxRates
import Mt7610u.RateCtrl.TxRatesExact
import Mt7610u.Mcu.LoadFirmware
import Mt7610u.Mcu.LoadFirmwareRuns
import Mt7610u.Mcu.SendLoop
import Mt7610u.Lib.Descent
import Mt7610u.RateCtrl.UpDown
import Mt7610u.RateCtrl.ByRssi
import Mt7610u.Lib.KeyDerivation
import Mt7610u.Crypto.Hmac
import Mt7610u.Wpa.KeyDerivation
import Mt7610u.Data.Tkip
import Mt7610u.Wpa.MakeRsnIe
import Mt7610u.Mgmt.AssocReq
import Mt7610u.Mgmt.AssocReqForm
import Mt7610u.Wpa.ByteCounter
import Mt7610u.Task.LinkList
import Mt7610u.Crypto.Arc4Stream
import Mt7610u.Profile.Setters
import Mt7610u.TxPower.TempTxAlc
import Mt7610u.Wpa.FourWay
import Mt7610u.Wpa.Rekey
