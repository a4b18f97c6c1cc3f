import HiTuxShare.HostedNodes
import HiTuxShare.NodeOrder

namespace HiTuxShare
set_option autoImplicit true

open MuscleLibrary

/-- The absolute path of these clauses. -/
def joinClauses (clauses : List String) : String :=
  clauses.foldr (fun clause rest => "/" ++ clause ++ rest) ""

/-- Clauses that a path holds one by one. -/
def ArePlain (clauses : List String) : Prop := ∀ clause ∈ clauses, clause ≠ "" ∧ '/' ∉ clause.toList

/-- On the path of plain clauses muscle counts them, and finds each of them with what follows. -/
structure MuscleLibrary.ReadsPaths [MuscleLibrary] : Prop where
  depth : ∀ clauses, ArePlain clauses → getPathDepth (joinClauses clauses) = clauses.length
  clause : ∀ before clause rest, ArePlain (before ++ clause :: rest) →
    getPathClause (before.length + 1) (joinClauses (before ++ clause :: rest)) =
      some (clause ++ joinClauses rest)

@[simp] theorem joinClauses_nil : joinClauses [] = "" := rfl

theorem joinClauses_cons (clause : String) (rest : List String) :
    joinClauses (clause :: rest) = "/" ++ clause ++ joinClauses rest := rfl

theorem toList_joinClauses_cons (clause : String) (rest : List String) :
    (joinClauses (clause :: rest)).toList =
      '/' :: (clause.toList ++ (joinClauses rest).toList) := by
  rw [joinClauses_cons, String.toList_append, String.toList_append]
  rfl

theorem ArePlain.head (h : ArePlain (clause :: rest)) : clause ≠ "" ∧ '/' ∉ clause.toList :=
  h clause List.mem_cons_self

theorem ArePlain.tail (h : ArePlain (clause :: rest)) : ArePlain rest :=
  fun other hm => h other (List.mem_cons_of_mem clause hm)

theorem takeWhile_append_slash {l : List Char} (h : '/' ∉ l) (rest : List Char) :
    (l ++ '/' :: rest).takeWhile (· ≠ '/') = l := by
  rw [List.takeWhile_append_of_pos, List.takeWhile_cons_of_neg, List.append_nil]
  · simp
  · intro c hc
    exact decide_eq_true fun he => h (he ▸ hc)

/-- A clause ends where the next one begins. -/
theorem firstClause_append (h : '/' ∉ clause.toList) (rest : List String) :
    firstClause (clause ++ joinClauses rest) = clause := by
  apply String.toList_inj.mp
  rw [firstClause, String.toList_ofList, String.toList_append]
  cases rest with
  | nil =>
    rw [joinClauses_nil, String.toList_empty, List.takeWhile_append_of_pos, List.takeWhile_nil,
      List.append_nil]
    intro c hc
    exact decide_eq_true fun he => h (he ▸ hc)
  | cons next rest => rw [toList_joinClauses_cons, takeWhile_append_slash h]

section
variable [MuscleLibrary]

theorem MuscleLibrary.ReadsPaths.clauseAt {clauses : List String} {clause : String} {depth : Nat}
    (h : ReadsPaths) (before rest : List String) (hplain : ArePlain clauses)
    (hdepth : depth = before.length + 1)
    (hc : clauses = before ++ clause :: rest) :
    getPathClause depth (joinClauses clauses) = some (clause ++ joinClauses rest) := by
  subst hc hdepth
  exact h.clause before clause rest hplain

theorem extractSessionId_joinClauses (h : MuscleLibrary.ReadsPaths)
    (hplain : ArePlain (host :: sessionId :: rest)) :
    extractSessionId (joinClauses (host :: sessionId :: rest)) = sessionId := by
  have hclause : getPathClause sessionIdDepth (joinClauses (host :: sessionId :: rest)) =
      some (sessionId ++ joinClauses rest) := h.clauseAt [host] rest hplain rfl rfl
  rw [extractSessionId, hclause]
  exact firstClause_append hplain.tail.head.2 rest

/-- The node of a user, files apart. -/
structure IsUserNodePath (nodePath host sessionId clause : String) : Prop where
  eq : nodePath = joinClauses [host, sessionId, "beshare", clause]
  plain : ArePlain [host, sessionId, "beshare", clause]

namespace IsUserNodePath

theorem depth (h : IsUserNodePath nodePath host sessionId clause)
    (hlibrary : MuscleLibrary.ReadsPaths) : getPathDepth nodePath = userNameDepth := by
  rw [h.eq]
  exact hlibrary.depth _ h.plain

theorem extractSessionId_eq (h : IsUserNodePath nodePath host sessionId clause)
    (hlibrary : MuscleLibrary.ReadsPaths) : extractSessionId nodePath = sessionId := by
  rw [h.eq]
  exact extractSessionId_joinClauses hlibrary h.plain

theorem userClause (h : IsUserNodePath nodePath host sessionId clause)
    (hlibrary : MuscleLibrary.ReadsPaths) :
    getPathClause userNameDepth nodePath = some clause := by
  rw [h.eq]
  exact (hlibrary.clauseAt [host, sessionId, "beshare"] [] h.plain rfl
    rfl).trans (congrArg some String.append_empty)

theorem hostName (h : IsUserNodePath nodePath host sessionId clause)
    (hlibrary : MuscleLibrary.ReadsPaths) :
    (getPathClause hostNameDepth nodePath).map firstClause = some host := by
  rw [h.eq, show getPathClause hostNameDepth _ = _ from
    hlibrary.clauseAt [] [sessionId, "beshare", clause] h.plain rfl rfl, Option.map_some,
    firstClause_append h.plain.head.2]

theorem owner (h : IsUserNodePath nodePath host sessionId clause)
    (hlibrary : MuscleLibrary.ReadsPaths) : nodeOwner nodePath = some sessionId := by
  rw [nodeOwner, h.depth hlibrary, h.extractSessionId_eq hlibrary, h.userClause hlibrary,
    if_neg (by simp [userNameDepth, fileInfoDepth, h.plain.tail.head.1])]
  rfl

theorem node (h : IsUserNodePath nodePath host sessionId clause)
    (hlibrary : MuscleLibrary.ReadsPaths) : nodeAt nodePath = userNode clause := by
  rw [nodeAt, h.userClause hlibrary, Option.bind_some]

end IsUserNodePath

/-- The node of a shared file, in one of the two directories. -/
structure IsFileNodePath (nodePath host sessionId directory fileName : String) : Prop where
  eq : nodePath = joinClauses [host, sessionId, "beshare", directory, fileName]
  plain : ArePlain [host, sessionId, "beshare", directory, fileName]

namespace IsFileNodePath

theorem depth (h : IsFileNodePath nodePath host sessionId directory fileName)
    (hlibrary : MuscleLibrary.ReadsPaths) : getPathDepth nodePath = fileInfoDepth := by
  rw [h.eq]
  exact hlibrary.depth _ h.plain

theorem extractSessionId_eq (h : IsFileNodePath nodePath host sessionId directory fileName)
    (hlibrary : MuscleLibrary.ReadsPaths) : extractSessionId nodePath = sessionId := by
  rw [h.eq]
  exact extractSessionId_joinClauses hlibrary h.plain

theorem fileClause (h : IsFileNodePath nodePath host sessionId directory fileName)
    (hlibrary : MuscleLibrary.ReadsPaths) :
    getPathClause fileInfoDepth nodePath = some fileName := by
  rw [h.eq]
  exact (hlibrary.clauseAt [host, sessionId, "beshare", directory] []
    h.plain rfl rfl).trans (congrArg some String.append_empty)

theorem owner (h : IsFileNodePath nodePath host sessionId directory fileName)
    (hlibrary : MuscleLibrary.ReadsPaths) : nodeOwner nodePath = none := by
  rw [nodeOwner, h.depth hlibrary, if_pos (.inr (.inl rfl))]

end IsFileNodePath

end

end HiTuxShare
