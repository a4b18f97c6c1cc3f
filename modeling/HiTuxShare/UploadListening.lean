import HiTuxShare.UploadEvents

namespace HiTuxShare
set_option autoImplicit true

/-- What the network layer answers to one attempt to listen. `putAcceptFactory` says for each port
whether it can be bound, and as which one. -/
structure ListenAnswer where
  startInternalThread : Option String := none
  putAcceptFactory : UInt16 → Option UInt16 := some

/-- The first port of the range that can be bound. -/
def ListenAnswer.firstPort (answer : ListenAnswer) (preferredPort portRange : UInt16) :
    Option UInt16 :=
  (List.range portRange.toNat).findSome? fun offset =>
    let candidate := preferredPort + .ofNat offset
    (answer.putAcceptFactory candidate).map fun actualPort =>
      if 0 < actualPort then actualPort else candidate

/-- The server with the port it listens on, or zero. -/
structure ListeningServer extends UploadWorld where
  listenPort : UInt16 := 0

namespace ListeningServer

def setLocalIdentity (w : ListeningServer) (sessionId : String) : ListeningServer :=
  { w with localSessionId := sessionId }

def setSharedFiles (w : ListeningServer) (files : Hashtable String SharedFile) : ListeningServer :=
  { w with toUploadWorld := w.toUploadWorld.setSharedFiles files }

/-- Every peer is dropped, and its file is closed. -/
def stopListening (w : ListeningServer) : ListeningServer :=
  { w with peers := .empty, listenPort := 0 }

/-- The port that is returned is the one listened on. -/
def startListening (w : ListeningServer) (answer : ListenAnswer)
    (preferredPort portRange : UInt16) : ListeningServer × UInt16 :=
  let w := w.stopListening
  match answer.startInternalThread with
  | some _ => (w, 0)
  | none =>
    match answer.firstPort preferredPort portRange with
    | some port => ({ w with listenPort := port }, port)
    | none => (w, 0)

@[simp] theorem startListening_sharedFiles (w : ListeningServer) (answer : ListenAnswer)
    (preferredPort portRange : UInt16) :
    (w.startListening answer preferredPort portRange).1.sharedFiles = w.sharedFiles := by
  simp only [startListening]
  split
  · rfl
  · split <;> rfl

@[simp] theorem startListening_listenPort (w : ListeningServer) (answer : ListenAnswer)
    (preferredPort portRange : UInt16) :
    (w.startListening answer preferredPort portRange).1.listenPort =
      (w.startListening answer preferredPort portRange).2 := by
  simp only [startListening]
  split
  · rfl
  · split <;> rfl

end ListeningServer

end HiTuxShare
