import HiTuxShare.Hashtable
import HiTuxShare.Message

namespace HiTuxShare
set_option autoImplicit true

/-- What one remote user has published about themselves on a server. -/
structure UserRecord where
  sessionId : String
  userName : String := ""
  hostName : String := ""
  userStatus : String := ""
  clientVersion : String := ""
  bandwidthLabel : String := ""
  port : Int32 := 0
  installId : UInt64 := 0
  fileCount : UInt32 := 0
  bandwidthBitsPerSecond : UInt32 := 0
  uploadsCurrent : UInt32 := 0
  uploadsMax : UInt32 := 0
  isBot : Bool := false
  isFirewalled : Bool := false
  supportsPartialHashing : Bool := false
  supportsSsl : Bool := false
  supportsRanges : Bool := false
  deriving DecidableEq

/-- The name to show, or the session ID until the name node has arrived. -/
def UserRecord.displayName (user : UserRecord) : String :=
  if user.userName ≠ "" then user.userName else user.sessionId

/-- The users of one server by session ID. -/
abbrev UserRegistry := Hashtable String UserRecord

namespace UserRegistry

def findUser (users : UserRegistry) (sessionId : String) : Option UserRecord :=
  users.get? sessionId

/-- The registry with the record, the record, and whether it is new. -/
def getOrCreateUser (users : UserRegistry) (sessionId : String) :
    UserRegistry × UserRecord × Bool :=
  match users.get? sessionId with
  | some existingUser => (users, existingUser, false)
  | none =>
    let newUser : UserRecord := { sessionId }
    (users.put sessionId newUser, newUser, true)

/-- The record goes, but is handed out once more. -/
def removeUser (users : UserRegistry) (sessionId : String) :
    Option (UserRecord × UserRegistry) :=
  (users.get? sessionId).map fun removedUser => (removedUser, users.remove sessionId)

def getDisplayNameForSession (users : UserRegistry) (sessionId : String) : String :=
  match users.get? sessionId with
  | some user => user.displayName
  | none => sessionId

end UserRegistry

/-- One file that somebody on the server is sharing. -/
structure FileResult where
  sessionId : String
  fileName : String
  path : String := ""
  kind : String := ""
  fileSize : Int := 0
  modificationTime : Int32 := 0
  isFirewalled : Bool := false
  attributes : Message Unit := .ofWhat ()
  deriving DecidableEq

end HiTuxShare
