import HiTuxShare.UploadAdmission
import HiTuxShare.UploadTurns

namespace HiTuxShare
set_option autoImplicit true

namespace UploadWorld

/-- What an event changes about the conversation with a peer before anything is sent. -/
def heard (w : UploadWorld) (sessionId : String) : UploadEvent → List UploadTurn
  | .sessionAccepted other _ => if other = sessionId then [.request []] else []
  | .messageReceived other message =>
    if other = sessionId ∧ message.what = .fileList ∧ (w.peers.get? sessionId).isSome then
      [.request (PeerUpload.resolve w.sharedFiles message)]
    else []
  | .diskChanged disk => [.view (contents disk)]
  | _ => []

def sentBy (w : UploadWorld) (e : UploadEvent) (sessionId : String) : List TransferMessage :=
  ((w.handle e).sentTo sessionId).drop (w.sentTo sessionId).length

/-- The turns are a reading of all that passes between the server and a peer in a run. -/
def Converses (sessionId : String) : UploadWorld → List UploadEvent → List UploadTurn → Prop
  | _, [], turns => turns = []
  | w, e :: es, turns => ∃ pieces later,
      turns = w.heard sessionId e ++ pieces.map .piece ++ later ∧
        List.Forall₂ (Carries w.localSessionId) (w.sentBy e sessionId) pieces ∧
        Converses sessionId (w.handle e) es later

/-- Files may be renamed, come and go, but what a file holds stays the same. -/
def KeepsContents (w : UploadWorld) : UploadEvent → Prop
  | .diskChanged disk => disk.contents = w.disk.contents
  | _ => True

/-- A drain notification finds its peer started. -/
def NoDrainOnHold (w : UploadWorld) : UploadEvent → Prop
  | .outputQueuesDrained sessionId => w.isQueued sessionId = false
  | _ => True

/-- What has been said to a peer since `w₀` is legal from the place `progress`. -/
structure Said (sessionId : String) (progress : UploadProgress) (w₀ w : UploadWorld)
    (pieces : List TransferPiece) : Prop extends Extends w₀ w where
  view : progress.view = contents w₀.disk
  sentTo : ∃ messages, w.sentTo sessionId = w₀.sentTo sessionId ++ messages ∧
    List.Forall₂ (Carries w₀.localSessionId) messages pieces
  legal : progress.LegalPieces pieces

/-- The conversation has come to a place the peer's record agrees with. -/
def Speaking (sessionId : String) (progress : UploadProgress) (w₀ w : UploadWorld) : Prop :=
  ∃ pieces, Said sessionId progress w₀ w pieces ∧
    ∀ peer, w.peers.get? sessionId = some peer → peer.InTurn w₀.disk (progress.carry pieces)

theorem said_nothing (sessionId : String) (h : progress.view = contents w.disk) :
    Said sessionId progress w w [] :=
  ⟨.refl w, h, ⟨[], (List.append_nil _).symm, .nil⟩, trivial⟩

theorem Said.congr (h : Said sessionId progress w₀ w pieces) (hx : Extends w w')
    (hs : w'.sentTo sessionId = w.sentTo sessionId) : Said sessionId progress w₀ w' pieces :=
  ⟨h.toExtends.trans hx, h.view, hs ▸ h.sentTo, h.legal⟩

theorem Said.snoc (h : Said sessionId progress w₀ w pieces) (hx : Extends w w')
    (hs : w'.sentTo sessionId = w.sentTo sessionId ++ [message])
    (hc : Carries w₀.localSessionId message piece)
    (hl : (progress.carry pieces).LegalPieces [piece]) :
    Said sessionId progress w₀ w' (pieces ++ [piece]) := by
  obtain ⟨messages, hm, hall⟩ := h.sentTo
  refine ⟨h.toExtends.trans hx, h.view, ⟨messages ++ [message], ?_, ?_⟩,
    Progress.legalPieces_append.mpr ⟨h.legal, hl⟩⟩
  · rw [hs, hm, List.append_assoc]
  · exact List.rel_append hall (.cons hc .nil)

theorem Speaking.congr (h : Speaking sessionId progress w₀ w) (hs : SameFor sessionId w w') :
    Speaking sessionId progress w₀ w' := by
  obtain ⟨pieces, h, hr⟩ := h
  exact ⟨pieces, h.congr hs.toExtends hs.sentTo, fun peer hp => hr peer (hs.record ▸ hp)⟩

theorem Said.beginNextFile (h : Said sessionId progress w₀ w pieces)
    (hp : w.peers.get? sessionId = some peer) (hb : peer.MayBegin (progress.carry pieces)) :
    Speaking sessionId progress w₀ (w.beginNextFile sessionId).1 := by
  have hview : (progress.carry pieces).view = contents w.disk := by
    rw [Progress.carry_view, h.view, h.disk]
  obtain ⟨hlegal, hrecord⟩ := hb.openNextFile hview
  have hp' : (w.beginNextFile sessionId).1.peers.get? sessionId =
      some (peer.openNextFile w.disk).1 := by
    rw [beginNextFile_peers hp, Hashtable.get?_put_self]
  cases ho : (peer.openNextFile w.disk).2 with
  | none =>
    rw [ho] at hrecord
    refine ⟨pieces, h.congr (extends_beginNextFile ..) ?_, ?_⟩
    · rw [beginNextFile_of_none hp ho]
      rfl
    · intro peer' hg
      rw [hp'] at hg
      cases hg
      rw [← h.disk]
      exact hrecord
  | some file =>
    rw [ho, Option.toList_some, List.map_singleton] at hlegal hrecord
    have hsent : (w.beginNextFile sessionId).1.sentTo sessionId =
        w.sentTo sessionId ++ [fileHeader w₀.localSessionId file] := by
      rw [beginNextFile_of_some hp ho, sentTo_act, sentTo_sendToPeer_self, sentTo_setPeer,
        h.localSessionId]
      exact List.append_nil _
    have hcarries : Carries w₀.localSessionId (fileHeader w₀.localSessionId file)
        (.header file) := rfl
    refine ⟨_, h.snoc (extends_beginNextFile ..) hsent hcarries hlegal, ?_⟩
    intro peer' hg
    rw [hp'] at hg
    cases hg
    rw [← h.disk, Progress.carry_append]
    exact hrecord

theorem Said.sendChunk (h : Said sessionId progress w₀ w pieces)
    (hr : peer.InTurn w₀.disk (progress.carry pieces)) (hq : peer.isQueued = false)
    (hf : peer.currentFile = some stream) :
    Speaking sessionId progress w₀
      (w.sendChunk sessionId peer ((w.disk.unread stream).take uploadChunkSize)
        (w.disk.fread uploadChunkSize stream).2) := by
  rw [h.disk]
  obtain ⟨hlegal, hrecord⟩ := hr.sent hq hf uploadChunkSize
    (peer.bytesSent + ((w₀.disk.unread stream).take uploadChunkSize).length)
  refine ⟨_, h.snoc (extends_sendChunk ..) ?_ (carries_fileData hr.mungeMode _) hlegal, ?_⟩
  · rw [UploadWorld.sendChunk, sentTo_act, sentTo_act, sentTo_setPeer, sentTo_sendToPeer_self]
    exact (List.append_nil _).trans (List.append_nil _)
  · intro peer' hg
    rw [sendChunk_peers, Hashtable.get?_put_self] at hg
    cases hg
    rw [Progress.carry_append]
    exact hrecord

/-- Whoever is served, the conversation with this peer goes on legally. -/
theorem speaking_induction (sessionId : String) (progress : UploadProgress) (w₀ : UploadWorld) :
    (∀ w other, Speaking sessionId progress w₀ w →
      (other = sessionId → w.isQueued sessionId = false) →
      Speaking sessionId progress w₀ (w.sendNextChunk other)) ∧
    ∀ w, Speaking sessionId progress w₀ w →
      Speaking sessionId progress w₀ w.startNextQueuedPeer := by
  apply serving_induction
    (G := fun w other => other = sessionId → w.isQueued sessionId = false)
  · rintro w other peer stream ⟨pieces, h, hr⟩ hm hp hf hu
    by_cases he : other = sessionId
    · subst he
      have hq : peer.isQueued = false := isQueued_of_get? hp ▸ hm rfl
      have hbegin : peer.MayBegin (progress.carry pieces) := by
        apply (hr peer hp).mayBegin hq
        intro stream' hs
        rw [hf] at hs
        cases hs
        rw [← h.disk, hu]
      refine ⟨h.beginNextFile hp hbegin, fun _ => ?_⟩
      rw [isQueued_beginNextFile, hm rfl]
    · exact ⟨Speaking.congr ⟨pieces, h, hr⟩ (sameFor_beginNextFile w he),
        fun he' => (he he').elim⟩
  · rintro w other peer stream ⟨pieces, h, hr⟩ hm hp hf _
    by_cases he : other = sessionId
    · subst he
      exact h.sendChunk (hr peer hp) (isQueued_of_get? hp ▸ hm rfl) hf
    · exact Speaking.congr ⟨pieces, h, hr⟩ (sameFor_sendChunk w _ _ _ he)
  · rintro w other peer ⟨pieces, h, hr⟩ _ hp hw
    by_cases he : other = sessionId
    · subst he
      have hq : peer.isQueued = true := (Bool.and_eq_true_iff.mp hw).1
      have hi := hr peer hp
      have hbegin : ({ peer with isQueued := false } : PeerUpload).MayBegin
          (progress.carry pieces) := ⟨hi.remaining, hi.mungeMode, rfl, .inl (hi.queued hq)⟩
      have hp' : (w.unqueue other peer).peers.get? other = some { peer with isQueued := false } :=
        Hashtable.get?_put_self ..
      have hunqueued : Said other progress w₀ (w.unqueue other peer) pieces :=
        h.congr (extends_setPeer ..) rfl
      refine ⟨hunqueued.beginNextFile hp' hbegin, fun _ => ?_⟩
      rw [isQueued_beginNextFile, isQueued_of_get? hp']
    · exact ⟨Speaking.congr ⟨pieces, h, hr⟩ ((sameFor_setPeer w _ he).trans
        (sameFor_beginNextFile _ he)), fun he' => (he he').elim⟩
  · exact fun w h => h.congr (sameFor_notify ..)

theorem Speaking.sendNextChunk (h : Speaking sessionId progress w₀ w)
    (hq : other = sessionId → w.isQueued sessionId = false) :
    Speaking sessionId progress w₀ (w.sendNextChunk other) :=
  (speaking_induction sessionId progress w₀).1 w other h hq

theorem Speaking.startNextQueuedPeer (h : Speaking sessionId progress w₀ w) :
    Speaking sessionId progress w₀ w.startNextQueuedPeer :=
  (speaking_induction sessionId progress w₀).2 w h

/-- The place a conversation has come to, as the server's state shows it. -/
structure Follows (sessionId : String) (progress : UploadProgress) (w : UploadWorld) : Prop where
  view : progress.view = contents w.disk
  record : ∀ peer, w.peers.get? sessionId = some peer → peer.InTurn w.disk progress

theorem Follows.speaking_put (h : Follows sessionId progress w) (hx : Extends w w')
    (hs : w'.sentTo sessionId = w.sentTo sessionId)
    (hput : w'.peers = w.peers.put sessionId peer) (hi : peer.InTurn w.disk progress) :
    Speaking sessionId progress w w' := by
  refine ⟨[], (said_nothing sessionId h.view).congr hx hs, ?_⟩
  intro peer' hp
  rw [hput, Hashtable.get?_put_self] at hp
  cases hp
  exact hi

theorem Follows.speaking (h : Follows sessionId progress w) (hs : SameFor sessionId w w') :
    Speaking sessionId progress w w' :=
  Speaking.congr ⟨[], said_nothing sessionId h.view, h.record⟩ hs

theorem Said.beginAndSend (h : Said sessionId progress w₀ w pieces)
    (hp : w.peers.get? sessionId = some peer) (hb : peer.MayBegin (progress.carry pieces)) :
    Speaking sessionId progress w₀ (w.beginAndSend sessionId) := by
  have hbegin := h.beginNextFile hp hb
  rw [UploadWorld.beginAndSend]
  split
  · apply hbegin.sendNextChunk
    intro _
    rw [isQueued_beginNextFile, isQueued_of_get? hp, hb.started]
  · exact hbegin

theorem Follows.fileList (h : Follows sessionId progress w)
    (hp : w.peers.get? sessionId = some peer) (message : TransferMessage) :
    Speaking sessionId
      (progress.advance (.request (PeerUpload.resolve w.sharedFiles message))) w
      (w.handleFileList sessionId message) := by
  have hi := h.record peer hp
  have hmode := PeerUpload.acceptFileList_mungeMode hi.mungeMode w.sharedFiles message
  have hview : (progress.advance
      (.request (PeerUpload.resolve w.sharedFiles message))).view = contents w.disk := h.view
  have hstored : Said sessionId
      (progress.advance (.request (PeerUpload.resolve w.sharedFiles message))) w
      (w.storeFileList sessionId peer message) [] := by
    apply (said_nothing sessionId hview).congr ((extends_setPeer ..).trans (extends_act ..))
    exact (sameFor_fileListReport ..).sentTo
  simp only [handleFileList, hp]
  split
  · have hsent : ((w.storeFileList sessionId peer message).holdPeer sessionId
        (peer.acceptFileList w.sharedFiles message)).sentTo sessionId =
          (w.storeFileList sessionId peer message).sentTo sessionId ++ [.ofWhat .notifyQueued] := by
      rw [UploadWorld.holdPeer, sentTo_act, sentTo_sendToPeer_self, sentTo_setPeer]
      exact List.append_nil _
    have hcarries : Carries w.localSessionId (.ofWhat .notifyQueued) .notice := rfl
    have hx : Extends (w.storeFileList sessionId peer message)
        ((w.storeFileList sessionId peer message).holdPeer sessionId
          (peer.acceptFileList w.sharedFiles message)) :=
      (extends_setPeer ..).trans ((extends_act ..).trans (extends_act ..))
    refine ⟨_, hstored.snoc hx hsent hcarries ⟨trivial, trivial⟩, ?_⟩
    intro peer' hg
    rw [holdPeer_peers, Hashtable.get?_put_self] at hg
    cases hg
    refine ⟨.inr rfl, hmode, ?_, fun _ => .inl rfl, fun _ => rfl⟩
    intro stream hs
    refine ⟨(hi.opened stream hs).1, ?_⟩
    rintro ⟨⟩
  · have hunqueued := hstored.congr (extends_setPeer (w.storeFileList sessionId peer message)
      sessionId { peer.acceptFileList w.sharedFiles message with isQueued := false }) rfl
    exact hunqueued.beginAndSend (Hashtable.get?_put_self ..) ⟨.inr rfl, hmode, rfl, .inl rfl⟩

theorem Follows.accepted (h : Follows sessionId progress w) (peerAddress : String) :
    Speaking sessionId (progress.advance (.request [])) w
      (w.handle (.sessionAccepted sessionId peerAddress)) := by
  have hview : (progress.advance (.request [])).view = contents w.disk := h.view
  refine ⟨[], (said_nothing sessionId hview).congr ((extends_setPeer ..).trans
    (extends_act ..)) (sameFor_notify sessionId _).sentTo, ?_⟩
  intro peer hp
  have hp' : some { peerAddress } = some peer :=
    (Hashtable.get?_put_self w.peers sessionId _).symm.trans hp
  cases hp'
  refine ⟨.inl rfl, .inl rfl, ?_, fun _ => .inl rfl, ?_⟩
  · rintro stream ⟨⟩
  · rintro ⟨⟩

theorem Follows.detached (h : Follows sessionId progress w) :
    Speaking sessionId progress w (w.handle (.sessionDetached sessionId)) := by
  have hremoved : Speaking sessionId progress w
      { w with peers := w.peers.remove sessionId } := by
    refine ⟨[], (said_nothing sessionId h.view).congr ⟨rfl, rfl, rfl, rfl, List.prefix_rfl⟩ rfl,
      ?_⟩
    intro peer hp
    rw [Hashtable.get?_remove, if_pos rfl] at hp
    cases hp
  exact hremoved.startNextQueuedPeer.congr (sameFor_notify ..)

theorem heard_fileList {w : UploadWorld} {message : TransferMessage}
    (h : w.peers.get? sessionId = some peer) (hw : message.what = .fileList) :
    w.heard sessionId (.messageReceived sessionId message) =
      [.request (PeerUpload.resolve w.sharedFiles message)] := by
  rw [heard, if_pos ⟨rfl, hw, by rw [h]; rfl⟩]

theorem heard_nothing {w : UploadWorld} {message : TransferMessage}
    (h : message.what = .fileList → w.peers.get? sessionId = none) :
    w.heard sessionId (.messageReceived sessionId message) = [] := by
  rw [heard, if_neg]
  rintro ⟨-, hw, hsome⟩
  rw [h hw] at hsome
  cases hsome

/-- Only a list of files asks for something; a greeting leaves what is going on as it is. -/
theorem Follows.message (h : Follows sessionId progress w) (message : TransferMessage) :
    Speaking sessionId
      (Progress.machine.run progress (w.heard sessionId (.messageReceived sessionId message))) w
      (w.handle (.messageReceived sessionId message)) := by
  cases hp : w.peers.get? sessionId with
  | none =>
    rw [heard_nothing fun _ => hp, handle, messageReceived, hp]
    exact h.speaking (sameFor_refl ..)
  | some peer =>
    have hi := h.record peer hp
    simp only [handle, messageReceived, hp]
    split
    · next hw =>
      have hother : message.what ≠ .fileList := by
        rw [hw]
        rintro ⟨⟩
      rw [heard_nothing fun hw' => absurd hw' hother]
      apply h.speaking_put ((extends_setPeer ..).trans (extends_act ..))
        (sameFor_notify sessionId _).sentTo rfl
      exact ⟨hi.remaining, hi.mungeMode, hi.opened, hi.closed, hi.queued⟩
    · next hw =>
      rw [heard_fileList hp hw]
      exact h.fileList hp message
    · next _ hw =>
      rw [heard_nothing fun hw' => absurd hw' hw]
      exact h.speaking (sameFor_refl ..)

theorem Follows.drained (h : Follows sessionId progress w)
    (hdrain : w.isQueued sessionId = false) :
    Speaking sessionId progress w (w.handle (.outputQueuesDrained sessionId)) := by
  rw [handle, UploadWorld.outputQueuesDrained]
  split
  · exact h.speaking (sameFor_refl ..)
  · next peer hp =>
    have hi := h.record peer hp
    have hq : peer.isQueued = false := isQueued_of_get? hp ▸ hdrain
    split
    · apply (h.speaking (sameFor_refl ..)).sendNextChunk
      exact fun _ => hdrain
    · next hf =>
      apply (said_nothing sessionId h.view).beginAndSend hp
      apply hi.mayBegin hq
      intro stream hs
      rw [hs] at hf
      exact absurd rfl hf

theorem Follows.ownEvent (h : Follows sessionId progress w) (he : e.session? = some sessionId)
    (hdrain : w.NoDrainOnHold e) :
    Speaking sessionId (Progress.machine.run progress (w.heard sessionId e)) w (w.handle e) := by
  cases e with
  | sessionAccepted other peerAddress =>
    cases he
    rw [heard, if_pos rfl]
    exact h.accepted peerAddress
  | sessionDetached other =>
    cases he
    exact h.detached
  | messageReceived other message =>
    cases he
    exact h.message message
  | outputQueuesDrained other =>
    cases he
    exact h.drained hdrain
  | setSharedFiles => cases he
  | diskChanged => cases he

theorem heard_elsewhere (w : UploadWorld) (he : e.session? = some other)
    (hne : other ≠ sessionId) : w.heard sessionId e = [] := by
  cases e with
  | sessionAccepted => cases he; exact if_neg hne
  | messageReceived => cases he; exact if_neg fun h => hne h.1
  | sessionDetached => rfl
  | outputQueuesDrained => rfl
  | setSharedFiles => rfl
  | diskChanged => cases he

theorem Follows.elsewhere (h : Follows sessionId progress w) (he : e.session? = some other)
    (hne : other ≠ sessionId) : Speaking sessionId progress w (w.handle e) := by
  apply elsewhere_induction (fun _ _ => Speaking.congr) _ (fun _ => Speaking.startNextQueuedPeer)
    he hne (h.speaking (sameFor_refl ..))
  intro w' other' hne' h'
  exact h'.sendNextChunk fun he' => (hne' he').elim

/-- One event: what it sends is legal after what it brings, and the record keeps up. -/
theorem Follows.handle (h : Follows sessionId progress w) (hcontents : w.KeepsContents e)
    (hdrain : w.NoDrainOnHold e) :
    ∃ pieces, List.Forall₂ (Carries w.localSessionId) (w.sentBy e sessionId) pieces ∧
      (Progress.machine.run progress (w.heard sessionId e)).LegalPieces pieces ∧
      Follows sessionId ((Progress.machine.run progress (w.heard sessionId e)).carry pieces)
        (w.handle e) := by
  cases hs : e.session? with
  | some other =>
    have hspeaking : Speaking sessionId (Progress.machine.run progress (w.heard sessionId e)) w
        (w.handle e) := by
      by_cases hne : other = sessionId
      · exact h.ownEvent (hne ▸ hs) hdrain
      · rw [heard_elsewhere w hs hne]
        exact h.elsewhere hs hne
    obtain ⟨pieces, hsaid, hrecord⟩ := hspeaking
    obtain ⟨messages, hm, hall⟩ := hsaid.sentTo
    refine ⟨pieces, ?_, hsaid.legal, ?_, ?_⟩
    · rw [sentBy, hm, List.drop_left]
      exact hall
    · rw [Progress.carry_view, hsaid.view, hsaid.disk]
    · rw [hsaid.disk]
      exact hrecord
  | none =>
    have hsilent : w.sentBy e sessionId = [] := by
      cases e with
      | setSharedFiles => exact List.drop_length ..
      | diskChanged => exact List.drop_length ..
      | _ => cases hs
    refine ⟨[], hsilent ▸ .nil, trivial, ?_⟩
    cases e with
    | setSharedFiles => exact ⟨h.view, h.record⟩
    | diskChanged disk =>
      refine ⟨rfl, ?_⟩
      intro peer hp
      have hi := h.record peer hp
      refine ⟨hi.remaining, hi.mungeMode, ?_, hi.closed, hi.queued⟩
      intro stream hf
      refine ⟨?_, (hi.opened stream hf).2⟩
      change progress.unsent = some ((disk.contents stream.file).drop stream.position)
      rw [hcontents]
      exact (hi.opened stream hf).1
    | _ => cases hs

theorem legal_heard (w : UploadWorld) (sessionId : String) (e : UploadEvent)
    (progress : UploadProgress) : progress.LegalTurns (w.heard sessionId e) := by
  cases e with
  | sessionAccepted => rw [heard]; split <;> trivial
  | messageReceived => rw [heard]; split <;> trivial
  | sessionDetached => trivial
  | outputQueuesDrained => trivial
  | setSharedFiles => trivial
  | diskChanged => trivial

theorem Follows.converses (h : Follows sessionId progress w)
    (hcontents : machine.EveryStep KeepsContents w es)
    (hdrains : machine.EveryStep NoDrainOnHold w es) :
    ∃ turns, Converses sessionId w es turns ∧ progress.LegalTurns turns := by
  induction es generalizing w progress with
  | nil => exact ⟨[], rfl, trivial⟩
  | cons e es ih =>
    obtain ⟨pieces, hall, hlegal, hfollows⟩ := h.handle hcontents.1 hdrains.1
    obtain ⟨later, hconverses, hlater⟩ := ih hfollows hcontents.2 hdrains.2
    refine ⟨_, ⟨pieces, later, rfl, hall, hconverses⟩, ?_⟩
    rw [Progress.LegalTurns, EventMachine.everyStep_append, EventMachine.everyStep_append,
      EventMachine.run_append]
    exact ⟨⟨legal_heard w sessionId e progress, hlegal⟩, hlater⟩

theorem converses_append {es fs : List UploadEvent}
    (h : Converses sessionId w (es ++ fs) turns) :
    ∃ before after, turns = before ++ after ∧ Converses sessionId w es before ∧
      Converses sessionId (machine.run w es) fs after := by
  induction es generalizing w turns with
  | nil => exact ⟨[], turns, rfl, rfl, h⟩
  | cons e es ih =>
    obtain ⟨pieces, later, rfl, hall, hlater⟩ := h
    obtain ⟨before, after, rfl, hbefore, hafter⟩ := ih hlater
    exact ⟨_, after, (List.append_assoc ..).symm, ⟨pieces, before, rfl, hall, hbefore⟩, hafter⟩

theorem Converses.view (h : Converses sessionId w es turns)
    (hes : ∀ e ∈ es, e.session?.isSome = true) (progress : UploadProgress) :
    (Progress.machine.run progress turns).view = progress.view := by
  induction es generalizing w turns progress with
  | nil => cases h; rfl
  | cons e es ih =>
    obtain ⟨pieces, later, rfl, -, hlater⟩ := h
    rw [EventMachine.run_append, ih hlater fun e' hm => hes e' (List.mem_cons_of_mem e hm),
      EventMachine.run_append]
    change ((Progress.machine.run progress (w.heard sessionId e)).carry pieces).view = _
    rw [Progress.carry_view]
    have he := hes e List.mem_cons_self
    cases e with
    | sessionAccepted => rw [heard]; split <;> rfl
    | messageReceived => rw [heard]; split <;> rfl
    | sessionDetached => rfl
    | outputQueuesDrained => rfl
    | setSharedFiles => cases he
    | diskChanged => cases he

def notes : SharedFile := ⟨"notes.txt", "", "/share/notes.txt", "text/plain", 4, 0⟩

def film : SharedFile := ⟨"film.bin", "", "/share/film.bin", "", 32769, 0⟩

/-- A share with a small file and one that takes two chunks. -/
def filmShare : Hashtable String SharedFile := notesShare.put "film.bin" film

def filmDisk : Disk :=
  .ofFiles [("/share/notes.txt", [1, 2, 3, 4]), ("/share/film.bin", List.replicate 32769 0)]

/-- With a cap of one: a peer is held, and started when another leaves. -/
def startedPeerRun : List UploadEvent :=
  [.sessionAccepted "/peer/1" "peer", .messageReceived "/peer/1" (requestFor ["notes.txt"]),
    .sessionAccepted "/peer/2" "other", .sessionDetached "/peer/2"]

/-- The peer repeats its list, is held again, gets its first file on a late drain notification,
and is started anew before that file is out. -/
def overlappingRequestRun : List UploadEvent :=
  [.messageReceived "/peer/1" (requestFor ["film.bin", "notes.txt"]),
    .outputQueuesDrained "/peer/1", .sessionAccepted "/peer/2" "other",
    .sessionDetached "/peer/2"]

/-- The header of the second file goes out in the middle of the first. -/
theorem started_anew_cuts_file_short :
    ¬ ∀ (sharedFiles : Hashtable String SharedFile) (localSessionId : String)
      (maxSimultaneousUploads : Nat) (disk : Disk) (es : List UploadEvent) (sessionId : String),
      machine.EveryStep KeepsContents
        (listening sharedFiles localSessionId maxSimultaneousUploads disk) es →
      ∃ turns, Converses sessionId
          (listening sharedFiles localSessionId maxSimultaneousUploads disk) es turns ∧
        Progress.LegalTurns { view := contents disk } turns := by
  intro h
  obtain ⟨turns, hconverses, hlegal⟩ := h filmShare "" 1 filmDisk
    (startedPeerRun ++ overlappingRequestRun) "/peer/1"
    ⟨trivial, trivial, trivial, trivial, trivial, trivial, trivial, trivial, trivial⟩
  obtain ⟨before, after, rfl, hbefore, hafter⟩ := converses_append hconverses
  have hview := hbefore.view (by decide) { view := contents filmDisk }
  obtain ⟨held, _, rfl, hheld, late, _, rfl, hlate, silent, _, rfl, hsilent, started, _, rfl,
    hstarted, rfl⟩ := hafter
  have hheard : (machine.run (listening filmShare "" 1 filmDisk) startedPeerRun).heard "/peer/1"
      (.messageReceived "/peer/1" (requestFor ["film.bin", "notes.txt"])) =
        [.request [film, notes]] := by
    rw [heard, if_pos ⟨rfl, by decide, by decide +kernel⟩]
    congr 2
    decide +kernel
  obtain rfl := notice_of_kinds ((kinds_of_carries hheld).symm.trans (by decide +kernel))
  obtain ⟨first, sent, rfl, hlength⟩ :=
    fileStart_of_kinds (n := 32768) ((kinds_of_carries hlate).symm.trans (by decide +kernel))
  obtain rfl : silent = [] :=
    List.map_eq_nil_iff.mp ((kinds_of_carries hsilent).symm.trans (by decide +kernel))
  obtain ⟨second, more, rfl, -⟩ :=
    fileStart_of_kinds (n := 4) ((kinds_of_carries hstarted).symm.trans (by decide +kernel))
  rw [hheard, heard_elsewhere (e := .sessionAccepted "/peer/2" "other") _ rfl (by decide)] at hlegal
  have hturns := (EventMachine.everyStep_append ..).mp hlegal |>.2
  generalize Progress.machine.run { view := contents filmDisk } before = place at hview hturns
  have hfilm : place.view film = some (List.replicate 32769 0) := by
    rw [hview]
    rfl
  have hnext : ((place.advance (.request [film, notes])).advance (.piece .notice)).next =
      film :: [notes] := by
    apply Progress.next_eq_of_split (rfl : _ = [] ++ film :: [notes]) (by simp)
    change (place.view film).isSome = true
    rw [hfilm]
    rfl
  obtain ⟨-, -, ⟨hfirst, -⟩, -, ⟨-, hfresh | hend⟩, -⟩ := hturns
  · cases hfresh
  · obtain rfl : film = first := Option.some.inj ((congrArg List.head? hnext).symm.trans hfirst)
    change ((place.view film).map (List.drop sent.length)).getD [] = [] at hend
    rw [hfilm, Option.map_some, Option.getD_some, hlength, List.drop_replicate] at hend
    cases hend

/-- What goes to a peer is a well-formed stream from the share, in every run that finds no peer
on hold when a drain notification comes in. -/
theorem upload_stream_well_formed (sharedFiles : Hashtable String SharedFile)
    (localSessionId : String) (maxSimultaneousUploads : Nat) (disk : Disk)
    (es : List UploadEvent) (sessionId : String)
    (hcontents : machine.EveryStep KeepsContents
      (listening sharedFiles localSessionId maxSimultaneousUploads disk) es)
    (hdrains : machine.EveryStep NoDrainOnHold
      (listening sharedFiles localSessionId maxSimultaneousUploads disk) es) :
    ∃ turns, Converses sessionId
        (listening sharedFiles localSessionId maxSimultaneousUploads disk) es turns ∧
      Progress.LegalTurns { view := contents disk } turns := by
  have hstart : Follows sessionId { view := contents disk }
      (listening sharedFiles localSessionId maxSimultaneousUploads disk) := by
    refine ⟨rfl, ?_⟩
    intro peer hp
    cases hp
  exact hstart.converses hcontents hdrains

/-- A peer that is started once another has left. -/
theorem upload_stream_well_formed_started :
    ∃ turns, Converses "/peer/1" (listening filmShare "" 1 filmDisk)
        (startedPeerRun ++ [.outputQueuesDrained "/peer/1"]) turns ∧
      Progress.LegalTurns { view := contents filmDisk } turns := by
  apply upload_stream_well_formed filmShare "" 1 filmDisk
  · exact ⟨trivial, trivial, trivial, trivial, trivial, trivial⟩
  · exact ⟨trivial, trivial, trivial, trivial, by change _ = false; decide +kernel, trivial⟩

end UploadWorld

end HiTuxShare
