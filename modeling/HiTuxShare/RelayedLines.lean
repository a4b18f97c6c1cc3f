import HiTuxShare.MessageAttribution
import HiTuxShare.MirroredPresence
import HiTuxShare.PrivateMessages

namespace HiTuxShare
set_option autoImplicit true

open MuscleLibrary

/-- A line of chat that somebody else has said, with its text as it is shown. -/
def ConnectionOccurrence.line : ConnectionOccurrence → Option (String × ChatDetails)
  | .chatMessageReceived .remoteUserChatMessage text details => some (text, details)
  | _ => none

/-- The lines that somebody has said in a session, in the order in which they were heard. -/
def linesFrom (sessionId : String) (history : List ConnectionOccurrence) :
    List (String × ChatDetails) :=
  (history.filterMap ConnectionOccurrence.line).filter fun line =>
    line.2.senderSessionId = sessionId

/-- What is heard when a line of chat arrives. -/
def heardLine (senderName sessionId text : String) (isPrivate : Bool) : String × ChatDetails :=
  (if startsWith text actionPrefix then .ofList (text.toList.drop actionPrefix.length) else text,
    { senderSessionId := sessionId
      senderName
      isPrivate
      isAction := startsWith text actionPrefix })

/-- The name under which a line of a session is heard. -/
def senderName (sessionId : String) (sender : Option UserRecord) : String :=
  match sender with
  | some user => user.displayName
  | none => sessionId

/-- The line that a message of the server is, if it is one of this session. -/
def lineOf (sessionId : String) (sender : Option UserRecord) (message : ServerMessage) :
    Option (String × ChatDetails) :=
  if message.what = .newChatText ∧ message.findString fieldSession = some sessionId then
    (message.findString fieldText).map fun text =>
      heardLine (senderName sessionId sender) sessionId text (message.hasField fieldPrivate)
  else none

theorem ConnectionOccurrence.IsIdle.silent {o : ConnectionOccurrence} (h : o.IsIdle) :
    o.line = none := by
  cases o with
  | chatMessageReceived type text details =>
    cases type with
    | remoteUserChatMessage => cases h
    | _ => rfl
  | _ => rfl

namespace ConnectionWorld

section
variable [MuscleLibrary]

end

end ConnectionWorld

/-- What a subscriber makes of one more message: whom it knows, and what they have said. -/
def hear [MuscleLibrary] (seats : Seats)
    (known : (Nat → Option UserRecord) × (Nat → List (String × ChatDetails)))
    (message : ServerMessage) : (Nat → Option UserRecord) × (Nat → List (String × ChatDetails)) :=
  (tellUsers seats known.1 message,
    fun n => known.2 n ++ (lineOf (seats.sessionOf n) (known.1 n) message).toList)

/-- The line that a call makes the subscriber hear, under the name the publisher has then. -/
def Publisher.said [MuscleRelay] (seats : Seats) (p : Publisher) (e : ServerConnectionEvent) :
    List (String × ChatDetails) :=
  match e.call with
  | .sendChatText targetSessionId text =>
    if p.server.hearsUsers = true ∧ p.isConnected = true ∧ text ≠ "" ∧
        MuscleRelay.names (makeSessionTargetPath targetSessionId) seats.subscriberNode = true then
      [heardLine (p.record seats).displayName (seats.sessionOf p.server.sessions) text
        (targetSessionId ≠ "*")]
    else []
  | _ => []

section
variable [MuscleLibrary]

variable [MuscleRelay]

namespace ServerState

end ServerState

end

namespace Publisher

section
variable [MuscleLibrary] [MuscleRelay]

end

end Publisher

end HiTuxShare
