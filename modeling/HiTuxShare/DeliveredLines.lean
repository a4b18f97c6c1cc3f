import HiTuxShare.RelayedLines

namespace HiTuxShare
set_option autoImplicit true

open MuscleLibrary

namespace SharedServer

/-- The lines of a session of the publisher that the subscriber has heard. -/
def heard [MuscleRelay] (seats : Seats) (s : SharedServer) (n : Nat) :
    List (String × ChatDetails) :=
  linesFrom (seats.sessionOf n) s.replica.history

section
variable [MuscleLibrary] [MuscleRelay]

/-- What a step lets the subscriber hear from a session of the publisher. -/
def said (seats : Seats) (s : SharedServer) (n : Nat) :
    SharedServerEvent → List (String × ChatDetails)
  | .publisher e => if n = s.source.server.sessions then s.source.said seats e else []
  | _ => []

end

end SharedServer

end HiTuxShare
