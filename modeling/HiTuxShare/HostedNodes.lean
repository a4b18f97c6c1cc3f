import HiTuxShare.ConnectionFrames
import Mathlib.Data.Finset.Card

namespace HiTuxShare
set_option autoImplicit true

/-- What a client relies on of its server: which nodes a key of a `PR_COMMAND_REMOVEDATA`
removes. -/
class MuscleServer where
  covers : String → String → Bool

/-- The key is a pattern for both directories of files, and a directory goes with all in it. -/
def MuscleServer.CoversFiles [MuscleServer] : Prop :=
  ∀ fileName, MuscleServer.covers allFileNodes (nodeFilesPath ++ fileName) = true ∧
    MuscleServer.covers allFileNodes (nodeFirewalledPath ++ fileName) = true

/-- A server that knows the one pattern we send. -/
abbrev plainServer : MuscleServer where
  covers key path :=
    if key = allFileNodes then startsWith path nodeFilesPath || startsWith path nodeFirewalledPath
    else key = path

theorem startsWith_append (start rest : String) : startsWith (start ++ rest) start = true := by
  rw [startsWith, String.toList_append]
  exact List.isPrefixOf_iff_prefix.mpr (List.prefix_append ..)

theorem plainServer_coversFiles : @MuscleServer.CoversFiles plainServer := by
  intro fileName
  constructor
  · change (if allFileNodes = allFileNodes then _ else _ : Bool) = true
    rw [if_pos rfl, startsWith_append nodeFilesPath, Bool.true_or]
  · change (if allFileNodes = allFileNodes then _ else _ : Bool) = true
    rw [if_pos rfl, startsWith_append nodeFirewalledPath, Bool.or_true]

theorem startsWith_iff {text start : String} :
    startsWith text start = true ↔ ∃ rest, text = start ++ rest := by
  constructor
  · intro h
    obtain ⟨rest, hr⟩ := List.isPrefixOf_iff_prefix.mp h
    refine ⟨.ofList rest, String.toList_inj.mp ?_⟩
    rw [String.toList_append, String.toList_ofList, hr]
  · rintro ⟨rest, rfl⟩
    exact startsWith_append start rest

theorem not_startsWith_both (path : String) :
    ¬(startsWith path nodeFilesPath = true ∧ startsWith path nodeFirewalledPath = true) := by
  rintro ⟨hfiles, hfires⟩
  obtain ⟨rest, rfl⟩ := startsWith_iff.mp hfiles
  obtain ⟨rest', he⟩ := startsWith_iff.mp hfires
  have hlist := congrArg String.toList he
  rw [String.toList_append, String.toList_append] at hlist
  simp [nodeFilesPath, nodeFirewalledPath] at hlist

theorem isFileNode_eq (path : String) : isFileNode path =
    (startsWith path nodeFilesPath || startsWith path nodeFirewalledPath) := rfl

theorem isFileNode_filesNodePath (c : ServerConnection) (fileName : String) :
    isFileNode (c.filesNodePath ++ fileName) = true := by
  rw [isFileNode_eq, ServerConnection.filesNodePath]
  split
  · rw [startsWith_append nodeFirewalledPath, Bool.or_true]
  · rw [startsWith_append nodeFilesPath, Bool.true_or]

/-- The nodes of a session, after a message from its client. -/
def applyMessage [MuscleServer] (nodes : Finset String) (message : ServerMessage) :
    Finset String :=
  match message.what with
  | .setData => nodes ∪ (message.nodes.map Prod.fst).toFinset
  | .removeData => nodes.filter fun path => (message.keys.any (MuscleServer.covers · path)) = false
  | _ => nodes

def applyOccurrence [MuscleServer] (nodes : Finset String) : ConnectionOccurrence → Finset String
  | .sent message => applyMessage nodes message
  | _ => nodes

theorem applyOccurrence_spares [MuscleServer] (nodes : Finset String)
    (h : o.touchesFiles = false) :
    (applyOccurrence nodes o).filter (isFileNode ·) = nodes.filter (isFileNode ·) := by
  cases o with
  | sent message =>
    simp only [ConnectionOccurrence.touchesFiles, ServerMessage.touchesFiles] at h
    simp only [applyOccurrence, applyMessage]
    split
    · next hset =>
      rw [hset] at h
      rw [Finset.filter_union, Finset.union_eq_left]
      intro path hp
      obtain ⟨hm, hfile⟩ := Finset.mem_filter.mp hp
      obtain ⟨node, hnode, rfl⟩ := List.mem_map.mp (List.mem_toFinset.mp hm)
      exact absurd hfile (List.any_eq_false.mp h node hnode)
    · next hremove =>
      rw [hremove] at h
      cases h
    · rfl
  | _ => rfl

namespace ConnectionWorld

/-- What we share, and the flag it is shared under, stay as they are. -/
structure SparesFiles (w w' : ConnectionWorld) : Prop where
  firewalled : w'.firewalled = w.firewalled
  publishedFileCount : w'.publishedFileCount = w.publishedFileCount
  only : DoesOnly (·.touchesFiles = false) w w'

theorem touchesFiles_of_isRoutine {o : ConnectionOccurrence} (h : o.isRoutine = true) :
    o.touchesFiles = false := by
  cases o with
  | sent message => exact (Bool.not_eq_true' _).mp ((Bool.and_eq_true _ _).mp h).1
  | _ => rfl

theorem Spares.files (h : Spares w w') : SparesFiles w w' :=
  ⟨congrArg FilesAndQuery.firewalled h.kept, congrArg FilesAndQuery.publishedFileCount h.kept,
    h.only.imp fun _ => touchesFiles_of_isRoutine⟩

theorem startQuery_sparesFiles (w : ConnectionWorld) (sessionExpression fileExpression : String) :
    SparesFiles w (w.startQuery sessionExpression fileExpression) := by
  simp only [startQuery]
  split
  · exact (Spares.refl w).files
  · have hstopped := w.stopQuery_spares.files
    refine ⟨hstopped.firewalled, hstopped.publishedFileCount, ?_⟩
    exact .trans (.note (.note hstopped.only rfl) rfl) (.one rfl rfl)

theorem messageReceived_sparesFiles [MuscleLibrary] (w : ConnectionWorld) (now : UInt64)
    (message : ServerMessage) : SparesFiles w (w.messageReceived now message) := by
  by_cases hwhat : message.what = .resultDataItems
  · rw [messageReceived, hwhat]
    apply handleDataItems_of_effect (I := SparesFiles w) _ (Spares.refl w).files
    intro nodePath _ w₁ w₂ heffect h
    cases heffect with
    | nothing => exact h
    | _ => exact ⟨h.firewalled, h.publishedFileCount, h.only.trans (.one rfl rfl)⟩
  · exact (w.messageReceived_spares now hwhat).files

end ConnectionWorld

/-- A connection, and the nodes the server has under its session. -/
structure HostedConnection extends ConnectionWorld where
  nodes : Finset String := ∅

namespace HostedConnection

/-- The server drops the nodes of a session that ends, and applies our messages in their order. -/
def handle [MuscleLibrary] [MuscleServer] (s : HostedConnection) (e : ServerConnectionEvent) :
    HostedConnection where
  toConnectionWorld := s.toConnectionWorld.handle e
  nodes := ((s.toConnectionWorld.handle e).history.drop s.history.length).foldl applyOccurrence
    (if s.endsSession e then ∅ else s.nodes)

theorem handle_toConnectionWorld [MuscleLibrary] [MuscleServer] (s : HostedConnection)
    (e : ServerConnectionEvent) :
    (s.handle e).toConnectionWorld = s.toConnectionWorld.handle e := rfl

def machine [MuscleLibrary] [MuscleServer] : EventMachine HostedConnection ServerConnectionEvent :=
  ⟨handle⟩

def fileNodes (s : HostedConnection) : Finset String := s.nodes.filter (isFileNode ·)

/-- Without a session there are no files. -/
def NoneOffline (s : HostedConnection) : Prop := s.isConnected = false → s.fileNodes = ∅

end HostedConnection

end HiTuxShare
