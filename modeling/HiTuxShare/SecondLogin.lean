import HiTuxShare.SharingOff
import HiTuxShare.UploadAdmission

namespace HiTuxShare
set_option autoImplicit true

/-- Every upload of before goes on as it was, and what could be requested still can be. The table
of the window counts: the next files that are found replace that of the server by it. -/
structure LeavesUploads (w w' : SharingWorld) : Prop where
  peers : w'.uploadServer.peers.Extends w.uploadServer.peers
  offered : w'.uploadServer.sharedFiles.Extends w.uploadServer.sharedFiles
  sharedFiles : w'.sharedFiles.Extends w.sharedFiles

namespace SharingWorld

/-- Whatever the answer is, the server is taken down first. -/
theorem listen_peers (w : SharingWorld) (answer : ListenAnswer) :
    (w.listen answer).uploadServer.peers = .empty := by
  have hpeers : (w.uploadServer.startListening answer defaultTransferPort
      transferPortRange).1.peers = .empty := by
    simp only [ListeningServer.startListening]
    split
    · rfl
    · split <;> rfl
  simp only [listen]
  split
  · exact hpeers
  · exact hpeers

theorem startSharing_peers {w : SharingWorld} (he : w.fileSharingEnabled = true)
    (hd : w.shareDirectory ≠ "") (answer : ListenAnswer) (fs : FileSystem) (created : Bool) :
    (w.startSharing answer fs created).uploadServer.peers = .empty := by
  simp only [startSharing]
  rw [if_neg (by simp [he]), if_neg hd]
  exact listen_peers _ answer

theorem startSharing_of_nothing_shared {w : SharingWorld}
    (h : w.fileSharingEnabled = false ∨ w.shareDirectory = "") (answer : ListenAnswer)
    (fs : FileSystem) (created : Bool) : LeavesUploads w (w.startSharing answer fs created) := by
  simp only [startSharing]
  split
  · exact ⟨.refl _, .refl _, .refl _⟩
  · next he => exact if_pos (h.resolve_left he) ▸ ⟨.refl _, .refl _, .refl _⟩

theorem localSessionIdAssigned_iff {w : SharingWorld} (h : w.uploadServer.peers ≠ .empty)
    (sessionId : String) (answer : ListenAnswer) (fs : FileSystem) (created : Bool) :
    LeavesUploads w (w.localSessionIdAssigned sessionId answer fs created) ↔
      w.fileSharingEnabled = false ∨ w.shareDirectory = "" := by
  constructor
  · intro hleaves
    by_contra hshares
    rw [not_or, Bool.not_eq_false] at hshares
    obtain ⟨he, hd⟩ := hshares
    have hpeers := hleaves.peers
    rw [localSessionIdAssigned, startSharing_peers (by exact he) (by exact hd)] at hpeers
    exact h (Hashtable.eq_empty_of_extends hpeers)
  · intro hnothing
    have hreported := startSharing_of_nothing_shared
      (w := w.appendLocalLine .informationMessage ("You are session " ++ sessionId ++ "."))
      hnothing answer fs created
    exact ⟨hreported.peers, hreported.offered, hreported.sharedFiles⟩

end SharingWorld

/-- One server is logged in, and a peer is downloading the file that was found. -/
def peerServed : SharingWorld :=
  let w := SharingWorld.machine.run (.opened notesDisk) (fileFoundRun ++ [.idleTick []])
  { w with
    uploadServer := { w.uploadServer with
      toUploadWorld := UploadWorld.machine.run w.uploadServer.toUploadWorld
        [.sessionAccepted "/peer/1" "peer",
          .messageReceived "/peer/1" (requestFor ["notes.txt"])] } }

theorem peerServed_peers : peerServed.uploadServer.peers ≠ .empty := by decide +kernel

theorem second_login_drops_peers :
    ¬ ∀ (w : SharingWorld) (sessionId : String) (answer : ListenAnswer) (fs : FileSystem)
      (created : Bool), w.uploadServer.peers ≠ .empty →
        LeavesUploads w (w.localSessionIdAssigned sessionId answer fs created) := by
  intro h
  rcases (SharingWorld.localSessionIdAssigned_iff peerServed_peers "2" {} oneFileFolder true).mp
    (h peerServed "2" {} oneFileFolder true peerServed_peers) with he | hd
  · exact absurd he (by decide +kernel)
  · exact absurd hd (by decide +kernel)

/-- While peers are served, the login on a further server leaves their uploads alone exactly if
sharing is switched off or has no folder. -/
theorem second_login_leaves_uploads (w : SharingWorld) (sessionId : String) (answer : ListenAnswer)
    (fs : FileSystem) (created : Bool) (h : w.uploadServer.peers ≠ .empty) :
    LeavesUploads w (w.localSessionIdAssigned sessionId answer fs created) ↔
      w.fileSharingEnabled = false ∨ w.shareDirectory = "" :=
  w.localSessionIdAssigned_iff h sessionId answer fs created

theorem served_peer_is_dropped :
    LeavesUploads peerServed (peerServed.localSessionIdAssigned "2" {} oneFileFolder true) ↔
      peerServed.fileSharingEnabled = false ∨ peerServed.shareDirectory = "" :=
  second_login_leaves_uploads peerServed "2" {} oneFileFolder true peerServed_peers

end HiTuxShare
