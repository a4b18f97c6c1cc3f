import HiTuxShare.PublishedFiles

set_option autoImplicit true

/-- A list in groups of `size`, of which only the last may be smaller. -/
structure InBatches (size : Nat) (xs : List α) (groups : List (List α)) : Prop where
  whole : groups.flatten = xs
  bounded : ∀ group ∈ groups, 1 ≤ group.length ∧ group.length ≤ size
  full : ∀ group ∈ groups.dropLast, group.length = size

namespace InBatches

theorem nil (size : Nat) : InBatches size ([] : List α) [] where
  whole := rfl
  bounded _ hm := absurd hm List.not_mem_nil
  full _ hm := absurd hm List.not_mem_nil

theorem one {xs : List α} (hne : xs ≠ []) (hle : xs.length ≤ size) :
    InBatches size xs [xs] where
  whole := List.append_nil xs
  bounded group hm := by
    cases List.mem_singleton.mp hm
    exact ⟨List.length_pos_iff.mpr hne, hle⟩
  full _ hm := absurd hm List.not_mem_nil

theorem cons {xs group : List α} (hpos : 0 < size) (hlength : group.length = size)
    (h : InBatches size xs groups) : InBatches size (group ++ xs) (group :: groups) where
  whole := by rw [List.flatten_cons, h.whole]
  bounded group' hm := by
    rcases List.mem_cons.mp hm with rfl | hm
    · exact ⟨hlength ▸ hpos, hlength.le⟩
    · exact h.bounded group' hm
  full group' hm := by
    cases groups with
    | nil => cases hm
    | cons next groups =>
      rcases List.mem_cons.mp hm with rfl | hm
      · exact hlength
      · exact h.full group' hm

end InBatches

namespace HiTuxShare

/-- A message that sets the nodes of one batch. -/
def setDataMessage (nodes : List (String × NodeMessage)) : ServerMessage :=
  { what := .setData, fields := [], nodes }

/-- A node that has everything about a file but the place it is served from. -/
structure DescribesFile (filesNodePath : String) (node : String × NodeMessage)
    (file : SharedFile) : Prop where
  path : node.1 = filesNodePath ++ file.fileName
  size : node.2.findInt64 fieldFileSize = some file.fileSize
  time : node.2.findInt32 fieldModificationTime = some file.modificationTime
  directory : node.2.findString fieldPath = some file.relativePath
  kind : node.2.strings fieldKind = if file.kind = "" then [] else [file.kind]

theorem describesFile_sharedFileNode (c : ServerConnection) (file : SharedFile) :
    DescribesFile c.filesNodePath (c.sharedFileNode file) file := by
  by_cases hk : file.kind = ""
  · have hnode : fileNode file = ⟨(), [(fieldFileSize, .int64 file.fileSize),
        (fieldModificationTime, .int32 file.modificationTime),
        (fieldPath, .string file.relativePath)]⟩ := if_neg (not_not_intro hk)
    constructor
    · rfl
    · exact congrArg (·.findInt64 fieldFileSize) hnode
    · exact congrArg (·.findInt32 fieldModificationTime) hnode
    · exact congrArg (·.findString fieldPath) hnode
    · rw [if_pos hk]
      exact congrArg (·.strings fieldKind) hnode
  · have hnode : fileNode file = ⟨(), [(fieldFileSize, .int64 file.fileSize),
        (fieldModificationTime, .int32 file.modificationTime),
        (fieldPath, .string file.relativePath), (fieldKind, .string file.kind)]⟩ := if_pos hk
    constructor
    · rfl
    · exact congrArg (·.findInt64 fieldFileSize) hnode
    · exact congrArg (·.findInt32 fieldModificationTime) hnode
    · exact congrArg (·.findString fieldPath) hnode
    · rw [if_neg hk]
      exact congrArg (·.strings fieldKind) hnode

namespace ConnectionWorld

/-- The batch that is being filled is never a full one. -/
theorem publishBatches_inBatches (w : ConnectionWorld) (batch : List (String × NodeMessage))
    (hb : batch.length < sharedFileBatchSize) (files : List SharedFile) :
    ∃ groups, (w.publishBatches batch files).history =
        w.history ++ groups.map (fun nodes => .sent (setDataMessage nodes)) ∧
      InBatches sharedFileBatchSize (batch ++ files.map w.sharedFileNode) groups := by
  induction files generalizing w batch with
  | nil =>
    rw [publishBatches, List.map_nil, List.append_nil]
    by_cases he : batch = []
    · rw [if_pos he, he]
      exact ⟨[], (List.append_nil _).symm, .nil _⟩
    · rw [if_neg he]
      exact ⟨[batch], rfl, .one he (Nat.le_of_lt hb)⟩
  | cons file files ih =>
    have hlength : (batch ++ [w.sharedFileNode file]).length = batch.length + 1 :=
      List.length_append
    have hwhole : batch ++ (file :: files).map w.sharedFileNode =
        (batch ++ [w.sharedFileNode file]) ++ files.map w.sharedFileNode := by
      rw [List.append_assoc]
      rfl
    rw [publishBatches, hwhole]
    split
    · next hfull =>
      obtain ⟨groups, hlater, hgroups⟩ := ih (({ w with
        publishedFileCount := w.publishedFileCount + 1 } : ConnectionWorld).setDataNodes
          (batch ++ [w.sharedFileNode file])) [] (by decide)
      apply Exists.intro ((batch ++ [w.sharedFileNode file]) :: groups)
      constructor
      · exact hlater.trans (List.append_assoc ..)
      · have hsize : (batch ++ [w.sharedFileNode file]).length = sharedFileBatchSize :=
          Nat.le_antisymm (hlength.le.trans hb) hfull
        exact hgroups.cons (by decide) hsize
    · next hroom =>
      exact ih { w with publishedFileCount := w.publishedFileCount + 1 }
        (batch ++ [w.sharedFileNode file]) (Nat.lt_of_not_le hroom)

/-- Every file is published once and in its turn, in messages of which only the last is not
filled. -/
theorem publishSharedFiles_inBatches (w : ConnectionWorld) (h : w.isConnected = true)
    (files : List SharedFile) (hd : (files.map (·.fileName)).Nodup) :
    ∃ messages : List ServerMessage,
      (w.publishSharedFiles files).history = w.history ++ messages.map .sent ∧
      (∀ message ∈ messages, message.what = .setData ∧ message.fields = []) ∧
      InBatches sharedFileBatchSize (messages.flatMap (·.nodes)) (messages.map (·.nodes)) ∧
      List.Forall₂ (DescribesFile w.filesNodePath) (messages.flatMap (·.nodes)) files ∧
      ((messages.flatMap (·.nodes)).map (·.1)).Nodup := by
  obtain ⟨groups, hhistory, hgroups⟩ := w.publishBatches_inBatches [] (by decide) files
  have hnodes : (groups.map setDataMessage).map (·.nodes) = groups := by
    rw [List.map_map]
    exact List.map_id groups
  have hwhole : (groups.map setDataMessage).flatMap (·.nodes) = files.map w.sharedFileNode := by
    rw [List.flatMap_def, hnodes]
    exact hgroups.whole
  apply Exists.intro (groups.map setDataMessage)
  rw [publishSharedFiles, if_pos h, hwhole, hnodes]
  constructor
  · rw [List.map_map]
    exact hhistory
  constructor
  · intro message hm
    obtain ⟨nodes, -, rfl⟩ := List.mem_map.mp hm
    exact ⟨rfl, rfl⟩
  constructor
  · exact hgroups
  constructor
  · rw [List.forall₂_map_left_iff, List.forall₂_same]
    exact fun file _ => describesFile_sharedFileNode w.toServerConnection file
  · have hpaths : (files.map w.sharedFileNode).map (·.1) =
        (files.map (·.fileName)).map (w.filesNodePath ++ ·) := by
      rw [List.map_map, List.map_map]
      rfl
    rw [hpaths]
    exact hd.map fun _ _ he => (String.append_right_inj _).mp he

theorem publishSharedFiles_inBatches_51 :
    let files : List SharedFile := (List.range 51).map fun n =>
      { fileName := "notes" ++ toString n ++ ".txt"
        relativePath := "docs"
        absolutePath := "/tmp/share/docs/notes" ++ toString n ++ ".txt"
        kind := "text/plain"
        fileSize := 6 }
    ∃ messages : List ServerMessage,
      InBatches sharedFileBatchSize (messages.flatMap (·.nodes)) (messages.map (·.nodes)) ∧
      List.Forall₂ (DescribesFile nodeFilesPath) (messages.flatMap (·.nodes)) files := by
  intro files
  obtain ⟨messages, -, -, hbatches, hfiles, -⟩ := publishSharedFiles_inBatches
    { connectionState := .connected } rfl files (by decide +kernel)
  exact ⟨messages, hbatches, hfiles⟩

end ConnectionWorld

end HiTuxShare
