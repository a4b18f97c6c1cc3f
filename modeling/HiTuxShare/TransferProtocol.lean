import HiTuxShare.Message

namespace HiTuxShare
set_option autoImplicit true

/-- The peer-to-peer command codes; anything else falls into a handler's default branch. -/
inductive TransferCommand where
  | connectedToPeer
  | disconnectedFromPeer
  | fileList
  | fileHeader
  | fileData
  | deprecated
  | notifyQueued
  | md5SendReadDone
  | md5RecvReadDone
  | peerId
  | rejected
  | other (what : UInt32)
  deriving DecidableEq

abbrev TransferMessage := Message TransferCommand

def mungeModeNone : Int32 := 0
def mungeModeXor : Int32 := 1

def fieldFileName : String := "beshare:File Name"
def fieldFileSize : String := "beshare:File Size"
def fieldPath : String := "beshare:Path"
def fieldKind : String := "beshare:Kind"
def fieldFromSession : String := "beshare:FromSession"
def fieldFromUserName : String := "beshare:FromUserName"
def fieldFileListNames : String := "files"
def fieldFileListOffsets : String := "offsets"
def fieldFileListMd5 : String := "md5"
def fieldMungeMode : String := "mm"
def fieldChecksum : String := "chk"
def fieldData : String := "data"
def fieldTimeLeft : String := "timeleft"

/-- How a line of the chat log is coloured. -/
inductive LogMessageType where
  | informationMessage
  | warningMessage
  | errorMessage
  | localUserChatMessage
  | remoteUserChatMessage
  | userEventMessage
  | uploadEventMessage
  deriving DecidableEq

/-- The loop both `_CalculateChecksum` functions run from byte `i` on. -/
def checksumFrom (sum : UInt32) (i : Nat) : List UInt8 → UInt32
  | [] => sum
  | byte :: data => checksumFrom (sum + byte.toUInt32 <<< UInt32.ofNat (i % 24)) (i + 1) data

/-- `MUNGE_MODE_XOR`: every byte XOR 0xFF. -/
def xorBytes (data : List UInt8) : List UInt8 := data.map (· ^^^ 0xFF)

@[simp] theorem xorBytes_xorBytes (data : List UInt8) : xorBytes (xorBytes data) = data := by
  have hb (b : UInt8) : b ^^^ 0xFF ^^^ 0xFF = b := by
    rw [UInt8.xor_assoc, UInt8.xor_self, UInt8.xor_zero]
  simp only [xorBytes, List.map_map]
  exact (List.map_congr_left fun b _ => hb b).trans (List.map_id data)

end HiTuxShare
