import HiTuxShare.UserNodes
import Mathlib.Data.List.Pairwise
import Mathlib.Data.List.Perm.Basic

namespace HiTuxShare
set_option autoImplicit true

/-- A node of the server that has been added or changed. -/
structure NodeUpdate where
  nodePath : String
  data : NodeMessage

/-- A peer has either files or fires. -/
def UserNode.counted : UserNode → UserNode
  | .fires => .files
  | node => node

def publishedUploadStats (data : NodeMessage) : Option (UInt32 × UInt32) :=
  match data.findInt32 fieldUploadsCurrent, data.findInt32 fieldUploadsMax with
  | some current, some maximum => some (current.toUInt32, maximum.toUInt32)
  | _, _ => none

def publishedBandwidth (data : NodeMessage) : Option (String × UInt32) :=
  match data.findString fieldBandwidthLabel, data.findInt32 fieldBandwidthBits with
  | some bandwidthLabel, some bitsPerSecond => some (bandwidthLabel, bitsPerSecond.toUInt32)
  | _, _ => none

/-- A record that two ways of processing leave under each session ID. -/
def UserRegistry.Same (users users' : UserRegistry) : Prop :=
  ∀ sessionId, users.findUser sessionId = users'.findUser sessionId

section
variable [MuscleLibrary]
open MuscleLibrary

/-- The session whose record a node is read into. -/
def nodeOwner (nodePath : String) : Option String :=
  if getPathDepth nodePath < userNameDepth ∨ getPathDepth nodePath = fileInfoDepth ∨
      extractSessionId nodePath = "" then none
  else (getPathClause userNameDepth nodePath).map fun _ => extractSessionId nodePath

def nodeAt (nodePath : String) : Option UserNode :=
  (getPathClause userNameDepth nodePath).bind userNode

/-- The nodes are of two sessions, or they are two of the nodes of one session. -/
def NodeUpdate.Differ (u u' : NodeUpdate) : Prop :=
  extractSessionId u.nodePath ≠ extractSessionId u'.nodePath ∨
    (nodeAt u.nodePath).map UserNode.counted ≠ (nodeAt u'.nodePath).map UserNode.counted

namespace UserRecord

/-- The record after an update of one of its nodes, whether that changes anything or not. -/
def writeNode (user : UserRecord) (node : UserNode) (nodePath : String) (data : NodeMessage) :
    UserRecord :=
  match node with
  | .name => user.readName nodePath data
  | .userStatus =>
    { user with userStatus := (data.findString fieldUserStatus).getD user.userStatus }
  | .uploadStats =>
    let stats := publishedUploadStats data
    { user with
      uploadsCurrent := (stats.map Prod.fst).getD user.uploadsCurrent
      uploadsMax := (stats.map Prod.snd).getD user.uploadsMax }
  | .bandwidth =>
    let bandwidth := publishedBandwidth data
    { user with
      bandwidthLabel := (bandwidth.map Prod.fst).getD user.bandwidthLabel
      bandwidthBitsPerSecond := (bandwidth.map Prod.snd).getD user.bandwidthBitsPerSecond }
  | .fileCount =>
    { user with
      fileCount := ((data.findInt32 fieldFileCount).map Int32.toUInt32).getD user.fileCount }
  | .fires => { user with isFirewalled := true }
  | .files => { user with isFirewalled := false }

def write (user : UserRecord) (u : NodeUpdate) : UserRecord :=
  match nodeAt u.nodePath with
  | some node => user.writeNode node u.nodePath u.data
  | none => user

theorem readNode_getD (user : UserRecord) (node : UserNode) (nodePath : String)
    (data : NodeMessage) :
    (user.readNode node nodePath data).getD user = user.writeNode node nodePath data := by
  cases node with
  | name | fires | files => rfl
  | userStatus =>
    rw [readNode, writeNode]
    cases data.findString fieldUserStatus <;> rfl
  | fileCount =>
    rw [readNode, writeNode]
    cases data.findInt32 fieldFileCount <;> rfl
  | uploadStats =>
    simp only [readNode, writeNode, publishedUploadStats]
    cases data.findInt32 fieldUploadsCurrent <;> cases data.findInt32 fieldUploadsMax <;> rfl
  | bandwidth =>
    simp only [readNode, writeNode, publishedBandwidth]
    cases data.findString fieldBandwidthLabel <;> cases data.findInt32 fieldBandwidthBits <;> rfl

/-- Each node has fields of its own. -/
theorem writeNode_comm (user : UserRecord) (nodePath nodePath' : String) (data data' : NodeMessage)
    (h : node.counted ≠ node'.counted) :
    (user.writeNode node nodePath data).writeNode node' nodePath' data' =
      (user.writeNode node' nodePath' data').writeNode node nodePath data := by
  cases node <;> cases node' <;> first | rfl | exact absurd rfl h

theorem write_comm (user : UserRecord) {u u' : NodeUpdate}
    (h : (nodeAt u.nodePath).map UserNode.counted ≠ (nodeAt u'.nodePath).map UserNode.counted) :
    (user.write u).write u' = (user.write u').write u := by
  simp only [write]
  cases hn : nodeAt u.nodePath with
  | none => rfl
  | some node =>
    cases hn' : nodeAt u'.nodePath with
    | none => rfl
    | some node' =>
      rw [hn, hn'] at h
      exact user.writeNode_comm _ _ _ _ fun heq => h (congrArg some heq)

end UserRecord

namespace ConnectionWorld

/-- The update is one of the session's own nodes, and the session is not ours. -/
def Reads (w : ConnectionWorld) (sessionId : String) (u : NodeUpdate) : Prop :=
  nodeOwner u.nodePath = some sessionId ∧ sessionId ≠ w.localSessionId

instance (w : ConnectionWorld) (sessionId : String) : DecidablePred (w.Reads sessionId) := fun u =>
  inferInstanceAs (Decidable (nodeOwner u.nodePath = some sessionId ∧
    sessionId ≠ w.localSessionId))

def applyUpdate (w : ConnectionWorld) (u : NodeUpdate) : ConnectionWorld :=
  w.handleNodeUpdated u.nodePath u.data

def applyUpdates (w : ConnectionWorld) (us : List NodeUpdate) : ConnectionWorld :=
  us.foldl applyUpdate w

end ConnectionWorld

/-- A new record is not announced here. -/
def ConnectionOccurrence.IsNoUpdate (o : ConnectionOccurrence) : Prop :=
  ∀ user isNewUser, o ≠ .userUpdated user isNewUser

open ConnectionOccurrence

/-- What an update does to the registry: the record it belongs to is written, unless it says what it
has said already; and any other update leaves the registry alone. -/
inductive UpdateEffect (w : ConnectionWorld) (u : NodeUpdate) : ConnectionWorld → Prop
  | writes (h : w.Reads sessionId u) :
      UpdateEffect w u (w.updateUser sessionId ((w.recordOf sessionId).write u))
  | agrees (h : w.Reads sessionId u)
      (hu : w.users.findUser sessionId = some ((w.recordOf sessionId).write u)) :
      UpdateEffect w u w
  | ignores (h : ∀ sessionId, ¬w.Reads sessionId u)
      (hs : w'.toServerConnection = w.toServerConnection) (hq : DoesOnly IsNoUpdate w w') :
      UpdateEffect w u w'

namespace ConnectionWorld

theorem handleUserNode_writes {w : ConnectionWorld} (h : w.Reads sessionId u) {clause : String}
    (hc : getPathClause userNameDepth u.nodePath = some clause) :
    UpdateEffect w u (w.handleUserNode sessionId u.nodePath u.data) := by
  have hwrite : ((userNode clause).bind fun node =>
      (w.recordOf sessionId).readNode node u.nodePath u.data).getD (w.recordOf sessionId) =
        (w.recordOf sessionId).write u := by
    simp only [UserRecord.write, nodeAt, hc, Option.bind_some]
    cases userNode clause with
    | none => rfl
    | some node => exact UserRecord.readNode_getD ..
  rw [handleUserNode_eq w sessionId u.data hc]
  split
  · next user hread =>
    rw [hread, Option.getD_some] at hwrite
    rw [hwrite]
    exact .writes h
  · next hread =>
    rw [hread, Option.getD_none] at hwrite
    split
    · next hnew =>
      have hrecord : { sessionId } = (w.recordOf sessionId).write u := by
        rw [← hwrite, recordOf, hnew]
        rfl
      rw [hrecord]
      exact .writes h
    · next hknown =>
      obtain ⟨user, hu⟩ := Option.ne_none_iff_exists'.mp hknown
      refine .agrees h ?_
      rw [← hwrite, recordOf, hu]
      rfl

theorem handleFileNode_ignores (w : ConnectionWorld) (sessionId nodePath : String)
    (data : NodeMessage) :
    (w.handleFileNode sessionId nodePath data).toServerConnection = w.toServerConnection ∧
      DoesOnly IsNoUpdate w (w.handleFileNode sessionId nodePath data) := by
  have hnothing : w.toServerConnection = w.toServerConnection ∧ DoesOnly IsNoUpdate w w :=
    ⟨rfl, .refl _ w⟩
  rw [handleFileNode]
  split
  · exact hnothing
  · split
    · exact hnothing
    · split
      · exact hnothing
      · split
        · exact hnothing
        · refine ⟨rfl, .one rfl ?_⟩
          rintro user isNewUser ⟨⟩

theorem applyUpdate_effect (w : ConnectionWorld) (u : NodeUpdate) :
    UpdateEffect w u (w.applyUpdate u) := by
  have hnobody (hn : nodeOwner u.nodePath = none) : ∀ sessionId, ¬w.Reads sessionId u := by
    intro sessionId hr
    cases hn.symm.trans hr.1
  simp only [applyUpdate, handleNodeUpdated]
  split
  · next hdepth =>
    refine .ignores (hnobody ?_) rfl (.refl _ w)
    rw [nodeOwner, if_pos (.inl hdepth)]
  · next hdepth =>
    split
    · next hs =>
      refine .ignores (hnobody ?_) rfl (.refl _ w)
      rw [nodeOwner, if_pos (.inr (.inr hs))]
    · next hs =>
      split
      · next hfile =>
        obtain ⟨hsame, hq⟩ := w.handleFileNode_ignores (extractSessionId u.nodePath) u.nodePath
          u.data
        refine .ignores (hnobody ?_) hsame hq
        rw [nodeOwner, if_pos (.inr (.inl hfile))]
      · next hfile =>
        have howner : nodeOwner u.nodePath =
            (getPathClause userNameDepth u.nodePath).map fun _ => extractSessionId u.nodePath := by
          rw [nodeOwner, if_neg (by simp [hdepth, hfile, hs])]
        split
        · next hown =>
          refine .ignores (fun sessionId hr => hr.2 ?_) rfl (.refl _ w)
          rw [← hown]
          cases hc : getPathClause userNameDepth u.nodePath with
          | none =>
            rw [hc] at howner
            cases howner.symm.trans hr.1
          | some clause =>
            rw [hc] at howner
            exact (Option.some.inj (howner.symm.trans hr.1)).symm
        · next hown =>
          cases hc : getPathClause userNameDepth u.nodePath with
          | none =>
            rw [hc] at howner
            rw [handleUserNode, hc]
            exact .ignores (hnobody howner) rfl (.refl _ w)
          | some clause =>
            rw [hc] at howner
            exact handleUserNode_writes ⟨howner, hown⟩ hc

theorem applyUpdate_localSessionId (w : ConnectionWorld) (u : NodeUpdate) :
    (w.applyUpdate u).localSessionId = w.localSessionId := by
  have heffect := w.applyUpdate_effect u
  generalize w.applyUpdate u = w' at heffect
  cases heffect with
  | writes h => rfl
  | agrees h hu => rfl
  | ignores h hs hq => exact congrArg ServerConnection.localSessionId hs

theorem applyUpdate_reads (w : ConnectionWorld) (u : NodeUpdate) (sessionId : String)
    (u' : NodeUpdate) : (w.applyUpdate u).Reads sessionId u' ↔ w.Reads sessionId u' := by
  rw [Reads, Reads, applyUpdate_localSessionId]

/-- The record of a session after an update, given the one before. -/
def readInto (w : ConnectionWorld) (sessionId : String) (known : Option UserRecord)
    (u : NodeUpdate) : Option UserRecord :=
  if w.Reads sessionId u then some ((known.getD { sessionId }).write u) else known

theorem applyUpdate_findUser (w : ConnectionWorld) (u : NodeUpdate) (sessionId : String) :
    (w.applyUpdate u).users.findUser sessionId =
      w.readInto sessionId (w.users.findUser sessionId) u := by
  have heffect := w.applyUpdate_effect u
  generalize w.applyUpdate u = w' at heffect
  rw [readInto]
  cases heffect with
  | @writes owner h =>
    refine (Hashtable.get?_put ..).trans ?_
    by_cases hs : sessionId = owner
    · subst hs
      rw [if_pos rfl, if_pos h]
      rfl
    · rw [if_neg hs, if_neg fun hr => hs (Option.some.inj (hr.1.symm.trans h.1))]
      rfl
  | @agrees owner h hu =>
    split
    · next hr =>
      cases Option.some.inj (hr.1.symm.trans h.1)
      exact hu
    · rfl
  | ignores h hs hq =>
    rw [if_neg (h sessionId), hs]

theorem applyUpdates_findUser (w : ConnectionWorld) (us : List NodeUpdate) (sessionId : String) :
    (w.applyUpdates us).users.findUser sessionId =
      us.foldl (w.readInto sessionId) (w.users.findUser sessionId) := by
  induction us generalizing w with
  | nil => rfl
  | cons u us ih =>
    have hreads : (w.applyUpdate u).readInto sessionId = w.readInto sessionId := by
      funext known u'
      simp only [readInto, applyUpdate_reads]
    rw [List.foldl_cons, ← applyUpdate_findUser, ← hreads]
    exact ih (w.applyUpdate u)

theorem extractSessionId_of_owner (h : nodeOwner nodePath = some sessionId) :
    extractSessionId nodePath = sessionId := by
  rw [nodeOwner] at h
  split at h
  · cases h
  · obtain ⟨clause, -, hs⟩ := Option.map_eq_some_iff.mp h
    exact hs

theorem readInto_comm (w : ConnectionWorld) (known : Option UserRecord) {u u' : NodeUpdate}
    (h : u.Differ u') : w.readInto sessionId (w.readInto sessionId known u) u' =
      w.readInto sessionId (w.readInto sessionId known u') u := by
  by_cases hr : w.Reads sessionId u
  · by_cases hr' : w.Reads sessionId u'
    · have hnode := h.resolve_left fun hne => hne
        ((extractSessionId_of_owner hr.1).trans (extractSessionId_of_owner hr'.1).symm)
      simp only [readInto, if_pos hr, if_pos hr', Option.getD_some]
      rw [UserRecord.write_comm _ hnode]
    · simp only [readInto, if_pos hr, if_neg hr']
  · simp only [readInto, if_neg hr]

theorem applyUpdates_perm (w : ConnectionWorld) {us us' : List NodeUpdate} (hperm : us.Perm us')
    (h : us.Pairwise NodeUpdate.Differ) :
    (w.applyUpdates us).users.Same (w.applyUpdates us').users := by
  have hsymm : Std.Symm NodeUpdate.Differ :=
    ⟨fun u u' hd => hd.imp Ne.symm Ne.symm⟩
  intro sessionId
  rw [applyUpdates_findUser, applyUpdates_findUser]
  apply hperm.foldl_eq'
  intro u hu u' hu' known
  by_cases heq : u = u'
  · rw [heq]
  · exact w.readInto_comm known (h.forall hu hu' heq)

end ConnectionWorld

/-- The listener is told of a session it has not heard of yet. -/
def ConnectionOccurrence.announces (sessionId : String) : ConnectionOccurrence → Bool
  | .userUpdated user true => user.sessionId = sessionId
  | _ => false

/-- Whom of a session the listener has been told of as new between the two states. -/
def announcedSince (sessionId : String) (w w' : ConnectionWorld) : List ConnectionOccurrence :=
  (w'.history.drop w.history.length).filter (announces sessionId)

theorem UserRecord.write_sessionId (user : UserRecord) (u : NodeUpdate) :
    (user.write u).sessionId = user.sessionId := by
  rw [write]
  split
  · next node _ => cases node <;> rfl
  · rfl

namespace ConnectionWorld

/-- A session is announced when its first record is written, and not again. -/
theorem applyUpdate_announces (w : ConnectionWorld) (u : NodeUpdate) (sessionId : String) :
    ∃ later, (w.applyUpdate u).history = w.history ++ later ∧
      later.filter (announces sessionId) =
        if w.Reads sessionId u ∧ w.users.findUser sessionId = none then
          [.userUpdated (({ sessionId } : UserRecord).write u) true]
        else [] := by
  have heffect := w.applyUpdate_effect u
  generalize w.applyUpdate u = w' at heffect
  cases heffect with
  | @writes owner h =>
    refine ⟨_, rfl, ?_⟩
    cases hu : w.users.findUser owner with
    | some known =>
      have hold : ¬(w.Reads sessionId u ∧ w.users.findUser sessionId = none) := by
        rintro ⟨hr, hnew⟩
        cases Option.some.inj (hr.1.symm.trans h.1)
        cases hnew.symm.trans hu
      rw [if_neg hold]
      rfl
    | none =>
      by_cases hs : sessionId = owner
      · subst hs
        rw [if_pos ⟨h, hu⟩, recordOf, hu]
        have hid := UserRecord.write_sessionId { sessionId } u
        simp [announces, hid]
      · have hother : ¬(w.Reads sessionId u ∧ w.users.findUser sessionId = none) := by
          rintro ⟨hr, -⟩
          exact hs (Option.some.inj (hr.1.symm.trans h.1))
        rw [if_neg hother, recordOf, hu]
        have hid := UserRecord.write_sessionId { sessionId := owner } u
        simp [announces, hid, Ne.symm hs]
  | @agrees owner h hu =>
    refine ⟨[], (List.append_nil _).symm, ?_⟩
    rw [if_neg]
    · rfl
    · rintro ⟨hr, hnew⟩
      cases Option.some.inj (hr.1.symm.trans h.1)
      cases hnew.symm.trans hu
  | ignores h hs hq =>
    obtain ⟨later, hlater, hquiet⟩ := hq
    refine ⟨later, hlater, ?_⟩
    rw [if_neg fun hr => h sessionId hr.1, List.filter_eq_nil_iff]
    intro o hm ho
    cases o with
    | userUpdated user isNewUser => exact hquiet _ hm user isNewUser rfl
    | _ => cases ho

theorem announcedSince_applyUpdate (w : ConnectionWorld) (u : NodeUpdate) (sessionId : String) :
    announcedSince sessionId w (w.applyUpdate u) =
      if w.Reads sessionId u ∧ w.users.findUser sessionId = none then
        [.userUpdated (({ sessionId } : UserRecord).write u) true]
      else [] := by
  obtain ⟨later, hlater, hfilter⟩ := w.applyUpdate_announces u sessionId
  rw [announcedSince, hlater, List.drop_left, hfilter]

theorem announcedSince_applyUpdates (w : ConnectionWorld) (us : List NodeUpdate)
    (h : w.users.findUser sessionId ≠ none ∨ ∀ u ∈ us, ¬w.Reads sessionId u) :
    announcedSince sessionId w (w.applyUpdates us) = [] := by
  have hrun : ∃ later, (w.applyUpdates us).history = w.history ++ later ∧
      later.filter (announces sessionId) = [] := by
    induction us generalizing w with
    | nil => exact ⟨[], (List.append_nil _).symm, rfl⟩
    | cons u us ih =>
      have hquiet : ¬(w.Reads sessionId u ∧ w.users.findUser sessionId = none) := by
        rintro ⟨hr, hnew⟩
        exact h.elim (fun hk => hk hnew) fun hn => hn u List.mem_cons_self hr
      obtain ⟨later, hlater, hfilter⟩ := w.applyUpdate_announces u sessionId
      rw [if_neg hquiet] at hfilter
      obtain ⟨later', hlater', hfilter'⟩ := ih (w.applyUpdate u) <| by
        rcases h with hk | hn
        · rw [applyUpdate_findUser, readInto]
          split
          · exact .inl nofun
          · exact .inl hk
        · refine .inr fun u' hm => ?_
          rw [applyUpdate_reads]
          exact hn u' (List.mem_cons_of_mem u hm)
      refine ⟨later ++ later', ?_, ?_⟩
      · change ((w.applyUpdate u).applyUpdates us).history = _
        rw [hlater', hlater, List.append_assoc]
      · rw [List.filter_append, hfilter, hfilter', List.append_nil]
  obtain ⟨later, hlater, hfilter⟩ := hrun
  rw [announcedSince, hlater, List.drop_left, hfilter]

theorem applyUpdates_concat (w : ConnectionWorld) (us : List NodeUpdate) (u : NodeUpdate) :
    w.applyUpdates (us ++ [u]) = (w.applyUpdates us).applyUpdate u := by
  rw [applyUpdates, List.foldl_append]
  rfl

theorem applyUpdates_localSessionId (w : ConnectionWorld) (us : List NodeUpdate) :
    (w.applyUpdates us).localSessionId = w.localSessionId := by
  induction us generalizing w with
  | nil => rfl
  | cons u us ih => exact (ih _).trans (w.applyUpdate_localSessionId u)

/-- The session is announced by the first of its updates, and by no other one. -/
def AnnouncedByFirst (w : ConnectionWorld) (us : List NodeUpdate) (sessionId : String) : Prop :=
  ∀ before u after, us = before ++ u :: after →
    (∀ u' ∈ before, nodeOwner u'.nodePath ≠ some sessionId) →
    nodeOwner u.nodePath = some sessionId →
      announcedSince sessionId w (w.applyUpdates before) = [] ∧
        (announcedSince sessionId (w.applyUpdates before)
          (w.applyUpdates (before ++ [u]))).length = 1 ∧
        announcedSince sessionId (w.applyUpdates (before ++ [u])) (w.applyUpdates us) = []

theorem announcedByFirst_of_new {w : ConnectionWorld} (us : List NodeUpdate)
    (hnew : w.users.findUser sessionId = none) (hother : sessionId ≠ w.localSessionId) :
    w.AnnouncedByFirst us sessionId := by
  rintro before u after rfl hbefore hu
  have hnone : ∀ u' ∈ before, ¬w.Reads sessionId u' := fun u' hm hr => hbefore u' hm hr.1
  have hreads : (w.applyUpdates before).Reads sessionId u := by
    rw [Reads, applyUpdates_localSessionId]
    exact ⟨hu, hother⟩
  have hstill : (w.applyUpdates before).users.findUser sessionId = none := by
    rw [applyUpdates_findUser, hnew]
    clear hu hreads
    induction before with
    | nil => rfl
    | cons u' before ih =>
      rw [List.foldl_cons, readInto, if_neg (hnone u' List.mem_cons_self)]
      exact ih (fun v hm => hbefore v (List.mem_cons_of_mem u' hm))
        fun v hm => hnone v (List.mem_cons_of_mem u' hm)
  refine ⟨w.announcedSince_applyUpdates before (.inr hnone), ?_, ?_⟩
  · rw [applyUpdates_concat, announcedSince_applyUpdate, if_pos ⟨hreads, hstill⟩]
    rfl
  · have hrest : w.applyUpdates (before ++ u :: after) =
        (w.applyUpdates (before ++ [u])).applyUpdates after := by
      rw [List.append_cons before u after, applyUpdates, List.foldl_append]
      rfl
    rw [hrest]
    apply announcedSince_applyUpdates
    rw [applyUpdates_concat, applyUpdate_findUser, readInto, if_pos hreads]
    exact .inl nofun

end ConnectionWorld

end

/-- Our own session is unknown to the list and is not announced. -/
theorem own_session_is_not_announced : ¬ ∀ (_ : MuscleLibrary) (w : ConnectionWorld)
    (us : List NodeUpdate) (sessionId : String), w.users.findUser sessionId = none →
      w.AnnouncedByFirst us sessionId := by
  intro h
  let u : NodeUpdate := ⟨"/host/5/beshare/name", (Message.ofWhat ()).addString fieldName "binky"⟩
  have hlength := (h plainLibrary { localSessionId := "5" } [u] "5" rfl [] u [] rfl nofun
    (by decide)).2.1
  exact absurd hlength (by decide)

/-- Two updates of different nodes leave the same registry in either order, and so do any two orders
of a set of such updates. Each session we do not know yet and which is not our own is announced
once, by the first of its updates. -/
theorem node_order_does_not_matter [MuscleLibrary] (w : ConnectionWorld) :
    (∀ u u' : NodeUpdate, u.Differ u' →
      ((w.applyUpdate u).applyUpdate u').users.Same ((w.applyUpdate u').applyUpdate u).users) ∧
    (∀ us us' : List NodeUpdate, us.Perm us' → us.Pairwise NodeUpdate.Differ →
      (w.applyUpdates us).users.Same (w.applyUpdates us').users) ∧
    ∀ (us : List NodeUpdate) (sessionId : String), w.users.findUser sessionId = none →
      sessionId ≠ w.localSessionId → w.AnnouncedByFirst us sessionId := by
  refine ⟨fun u u' hd => ?_, fun us us' hperm hd => w.applyUpdates_perm hperm hd,
    fun us sessionId hnew hother => ConnectionWorld.announcedByFirst_of_new us hnew hother⟩
  have hpair : [u, u'].Pairwise NodeUpdate.Differ := by simp [hd]
  exact w.applyUpdates_perm (.swap u' u []) hpair

/-- The name and the status of a user who has just arrived. -/
theorem name_and_status_in_either_order :
    let _ : MuscleLibrary := plainLibrary
    let start : ConnectionWorld := {}
    let name : NodeUpdate :=
      ⟨"/host/5/beshare/name", (Message.ofWhat ()).addString fieldName "ann"⟩
    let status : NodeUpdate :=
      ⟨"/host/5/beshare/userstatus", (Message.ofWhat ()).addString fieldUserStatus "away"⟩
    name.Differ status ∧
      ((start.applyUpdate name).applyUpdate status).users.Same
        ((start.applyUpdate status).applyUpdate name).users ∧
      start.AnnouncedByFirst [name, status] "5" := by
  intro library start name status
  have hd : name.Differ status := .inr (by decide)
  have horder := node_order_does_not_matter start
  exact ⟨hd, horder.1 name status hd, horder.2.2 [name, status] "5" rfl (by decide)⟩

end HiTuxShare
