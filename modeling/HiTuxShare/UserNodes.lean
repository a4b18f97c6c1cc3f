import HiTuxShare.ServerMessages

namespace HiTuxShare
set_option autoImplicit true

namespace UserRegistry

/-- A record is stored under the session it is of. -/
def Keyed (users : UserRegistry) : Prop :=
  ∀ sessionId user, users.findUser sessionId = some user → user.sessionId = sessionId

theorem getOrCreateUser_of_known {users : UserRegistry}
    (h : users.findUser sessionId = some user) :
    users.getOrCreateUser sessionId = (users, user, false) := by
  rw [findUser] at h
  rw [getOrCreateUser, h]

theorem getOrCreateUser_of_new {users : UserRegistry} (h : users.findUser sessionId = none) :
    users.getOrCreateUser sessionId =
      (users.put sessionId { sessionId }, { sessionId }, true) := by
  rw [findUser] at h
  rw [getOrCreateUser, h]

theorem findUser_put (users : UserRegistry) (sessionId sessionId' : String) (user : UserRecord) :
    findUser (users.put sessionId user) sessionId' =
      if sessionId = sessionId' then some user else users.findUser sessionId' := by
  rw [findUser, Hashtable.get?_put]
  exact if_congr eq_comm rfl rfl

theorem findUser_remove (users : UserRegistry) (sessionId sessionId' : String) :
    findUser (users.remove sessionId) sessionId' =
      if sessionId = sessionId' then none else users.findUser sessionId' := by
  rw [findUser, Hashtable.get?_remove]
  exact if_congr eq_comm rfl rfl

theorem keyed_empty : Keyed .empty := by
  intro sessionId user hu
  cases hu

theorem Keyed.put {users : UserRegistry} (h : users.Keyed) (user : UserRecord) :
    Keyed (Hashtable.put users user.sessionId user) := by
  intro sessionId known hk
  rw [findUser_put] at hk
  split at hk
  · next heq =>
    cases hk
    exact heq
  · exact h sessionId known hk

theorem Keyed.remove {users : UserRegistry} (h : users.Keyed) (sessionId : String) :
    Keyed (Hashtable.remove users sessionId) := by
  intro sessionId' known hk
  rw [findUser_remove] at hk
  split at hk
  · cases hk
  · exact h sessionId' known hk

@[simp] theorem findUser_put_self (users : UserRegistry) (sessionId : String) (user : UserRecord) :
    findUser (users.put sessionId user) sessionId = some user :=
  Hashtable.get?_put_self users sessionId user

end UserRegistry

namespace ConnectionWorld

def updateUser (w : ConnectionWorld) (sessionId : String) (user : UserRecord) : ConnectionWorld :=
  { w with users := w.users.put sessionId user }.note
    (.userUpdated user (w.users.findUser sessionId).isNone)

def dropUser (w : ConnectionWorld) (sessionId : String) (user : UserRecord) : ConnectionWorld :=
  { w with users := w.users.remove sessionId }.note (.userLeft user)

/-- The record an update is read into. -/
def recordOf (w : ConnectionWorld) (sessionId : String) : UserRecord :=
  (w.users.findUser sessionId).getD { sessionId }

end ConnectionWorld

section
variable [MuscleLibrary]
open MuscleLibrary

/-- All that one node of a data item message can do. -/
inductive NodeEffect (w : ConnectionWorld) (nodePath : String) : ConnectionWorld → Prop
  | nothing : NodeEffect w nodePath w
  | resultAdded (result : FileResult) (sharerName : String) :
      NodeEffect w nodePath (w.note (.queryResultAdded result sharerName))
  | resultRemoved (sessionId fileName : String) :
      NodeEffect w nodePath (w.note (.queryResultRemoved sessionId fileName))
  | userUpdated (hs : extractSessionId nodePath ≠ "")
      (hl : extractSessionId nodePath ≠ w.localSessionId)
      (hu : user.sessionId = (w.recordOf (extractSessionId nodePath)).sessionId) :
      NodeEffect w nodePath (w.updateUser (extractSessionId nodePath) user)
  | userLeft (hu : w.users.findUser (extractSessionId nodePath) = some user) :
      NodeEffect w nodePath (w.dropUser (extractSessionId nodePath) user)

/-- The nodes a data item message is about. -/
def ServerMessage.nodePaths (message : ServerMessage) : List String :=
  message.removedDataItems ++ message.updatedNodes.map Prod.fst

theorem UserRecord.readNode_sessionId {user user' : UserRecord}
    (h : user.readNode node nodePath data = some user') : user'.sessionId = user.sessionId := by
  cases node with
  | name | fires | files =>
    cases h
    rfl
  | userStatus | fileCount =>
    obtain ⟨value, -, rfl⟩ := Option.map_eq_some_iff.mp h
    rfl
  | uploadStats | bandwidth =>
    simp only [readNode] at h
    split at h
    · cases h
      rfl
    · cases h

namespace ConnectionWorld

/-- What `_HandleUserNode` comes to: nothing is announced only if the session is known already and
the node says nothing we read. -/
theorem handleUserNode_eq (w : ConnectionWorld) (sessionId : String) (data : NodeMessage)
    {nodeName : String} (h : getPathClause userNameDepth nodePath = some nodeName) :
    w.handleUserNode sessionId nodePath data =
      match (userNode nodeName).bind fun node =>
          (w.recordOf sessionId).readNode node nodePath data with
      | some user => w.updateUser sessionId user
      | none =>
        if w.users.findUser sessionId = none then w.updateUser sessionId { sessionId } else w := by
  rw [handleUserNode, h]
  cases hk : w.users.findUser sessionId with
  | none =>
    simp only [UserRegistry.getOrCreateUser_of_new hk, recordOf, hk, Option.getD_none, ↓reduceIte]
    cases (userNode nodeName).bind fun node =>
        UserRecord.readNode { sessionId } node nodePath data with
    | none =>
      simp only [notifyUserUpdated, UserRegistry.findUser_put_self, updateUser, hk,
        Option.isNone_none]
    | some user =>
      simp only [Hashtable.put_put, notifyUserUpdated, UserRegistry.findUser_put_self, updateUser,
        hk, Option.isNone_none]
  | some known =>
    simp only [UserRegistry.getOrCreateUser_of_known hk, recordOf, hk, Option.getD_some,
      Bool.false_eq_true, reduceCtorEq, ↓reduceIte]
    cases (userNode nodeName).bind fun node => known.readNode node nodePath data with
    | none => rfl
    | some user =>
      simp only [notifyUserUpdated, UserRegistry.findUser_put_self, updateUser, hk,
        Option.isNone_some]

theorem handleUserNode_effect (w : ConnectionWorld) (data : NodeMessage)
    (hs : extractSessionId nodePath ≠ "") (hl : extractSessionId nodePath ≠ w.localSessionId) :
    NodeEffect w nodePath (w.handleUserNode (extractSessionId nodePath) nodePath data) := by
  cases hc : getPathClause userNameDepth nodePath with
  | none =>
    rw [handleUserNode, hc]
    exact .nothing
  | some nodeName =>
    rw [handleUserNode_eq w _ data hc]
    split
    · next user hread =>
      obtain ⟨node, -, hread⟩ := Option.bind_eq_some_iff.mp hread
      exact .userUpdated hs hl (UserRecord.readNode_sessionId hread)
    · split
      · next hnew =>
        apply NodeEffect.userUpdated hs hl
        rw [recordOf, hnew]
        rfl
      · exact .nothing

theorem handleFileNode_effect (w : ConnectionWorld) (sessionId nodePath : String)
    (data : NodeMessage) : NodeEffect w nodePath (w.handleFileNode sessionId nodePath data) := by
  rw [handleFileNode]
  split
  · exact .nothing
  · split
    · exact .nothing
    · split
      · exact .nothing
      · split
        · exact .nothing
        · exact .resultAdded _ _

theorem handleNodeUpdated_effect (w : ConnectionWorld) (nodePath : String) (data : NodeMessage) :
    NodeEffect w nodePath (w.handleNodeUpdated nodePath data) := by
  simp only [handleNodeUpdated]
  split
  · exact .nothing
  · split
    · exact .nothing
    · next hs =>
      split
      · exact w.handleFileNode_effect _ nodePath data
      · split
        · exact .nothing
        · next hl => exact w.handleUserNode_effect data hs hl

theorem handleNodeRemoved_effect (w : ConnectionWorld) (nodePath : String) :
    NodeEffect w nodePath (w.handleNodeRemoved nodePath) := by
  simp only [handleNodeRemoved]
  split
  · split
    · split
      · exact .resultRemoved _ _
      · exact .nothing
    · exact .nothing
  · split
    · exact .nothing
    · split
      · exact .nothing
      · split
        · next hremoved =>
          obtain ⟨user, hu, heq⟩ := Option.map_eq_some_iff.mp hremoved
          cases heq
          exact .userLeft hu
        · exact .nothing

theorem handleDataItems_of_effect {I : ConnectionWorld → Prop} {message : ServerMessage}
    (hI : ∀ nodePath ∈ message.nodePaths, ∀ w w', NodeEffect w nodePath w' → I w → I w')
    {w : ConnectionWorld} (hw : I w) : I (w.handleDataItems message) := by
  simp only [ServerMessage.nodePaths, List.forall_mem_append, List.forall_mem_map] at hI
  obtain ⟨hremoved, hupdated⟩ := hI
  rw [handleDataItems]
  apply List.foldlRecOn
  · apply List.foldlRecOn
    · exact hw
    · intro w h nodePath hm
      exact hremoved nodePath hm _ _ (w.handleNodeRemoved_effect nodePath) h
  · intro w h node hm
    exact hupdated node hm _ _ (w.handleNodeUpdated_effect node.1 node.2) h

end ConnectionWorld

end

theorem NodeEffect.toServerConnection [MuscleLibrary] (h : NodeEffect w nodePath w') :
    w'.toServerConnection = { w.toServerConnection with users := w'.users } := by
  cases h <;> rfl

end HiTuxShare
