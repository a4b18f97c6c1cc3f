import HiTuxShare.RelayingServer

namespace HiTuxShare
set_option autoImplicit true

open MuscleLibrary

theorem eraseDups_of_nodup [DecidableEq α] {l : List α} (h : l.Nodup) : l.eraseDups = l := by
  induction l with
  | nil => rfl
  | cons a l ih =>
    obtain ⟨hnew, hl⟩ := List.nodup_cons.mp h
    have hkept : (l.filter fun b => !b == a) = l := by
      apply List.filter_eq_self.mpr
      intro b hb
      simpa using fun he : b = a => hnew (he ▸ hb)
    rw [List.eraseDups_cons, hkept, ih hl]

theorem ServerMessage.updatedNodes_of_nodup {message : ServerMessage}
    (h : (message.nodes.map Prod.fst).Nodup) : message.updatedNodes = message.nodes := by
  have hfirst {nodes : List (String × NodeMessage)} (hn : (nodes.map Prod.fst).Nodup) :
      (nodes.map Prod.fst).filterMap (fun name => nodes.find? fun node => node.1 = name) =
        nodes := by
    induction nodes with
    | nil => rfl
    | cons node nodes ih =>
      rw [List.map_cons, List.nodup_cons] at hn
      have hself : (node :: nodes).find? (fun other => other.1 = node.1) = some node :=
        List.find?_cons_of_pos (decide_eq_true rfl)
      rw [List.map_cons, List.filterMap_cons, hself]
      refine congrArg (node :: ·) (Eq.trans (List.filterMap_congr fun name hm => ?_) (ih hn.2))
      apply List.find?_cons_of_neg
      simpa using fun he : node.1 = name => hn.1 (he ▸ hm)
  rw [updatedNodes, eraseDups_of_nodup h]
  exact hfirst h

section
variable [MuscleLibrary]

/-- The record of a session after one of the nodes a message says are gone. -/
def dropInto (sessionId : String) (known : Option UserRecord) (nodePath : String) :
    Option UserRecord :=
  if getPathDepth nodePath ≠ fileInfoDepth ∧ isUserGone nodePath = true ∧
    extractSessionId nodePath = sessionId then none else known

theorem foldl_dropInto_none (sessionId : String) (nodePaths : List String) :
    nodePaths.foldl (dropInto sessionId) none = none := by
  apply foldl_eq_self
  intro nodePath _
  exact ite_self none

theorem foldl_dropInto_of_gone {sessionId : String} {nodePaths : List String}
    (hm : nodePath ∈ nodePaths) (hdepth : getPathDepth nodePath ≠ fileInfoDepth)
    (hgone : isUserGone nodePath = true) (ho : extractSessionId nodePath = sessionId)
    (known : Option UserRecord) : nodePaths.foldl (dropInto sessionId) known = none := by
  obtain ⟨before, later, rfl⟩ := List.append_of_mem hm
  rw [List.foldl_append, List.foldl_cons, dropInto, if_pos ⟨hdepth, hgone, ho⟩,
    foldl_dropInto_none]

theorem foldl_dropInto_of_stays {sessionId : String} {nodePaths : List String}
    (h : ∀ nodePath ∈ nodePaths, getPathDepth nodePath = fileInfoDepth ∨
      isUserGone nodePath = false ∨ extractSessionId nodePath ≠ sessionId)
    (known : Option UserRecord) : nodePaths.foldl (dropInto sessionId) known = known := by
  apply foldl_eq_self
  intro nodePath hm
  apply if_neg
  rintro ⟨hdepth, hgone, ho⟩
  rcases h nodePath hm with hfile | hstays | hother
  · exact hdepth hfile
  · exact Bool.eq_false_iff.mp hstays hgone
  · exact hother ho

/-- The record of a session that is not ours, after one of the nodes a message brings. -/
def writeInto (sessionId : String) (known : Option UserRecord) (node : String × NodeMessage) :
    Option UserRecord :=
  if nodeOwner node.1 = some sessionId then
    some ((known.getD { sessionId }).write ⟨node.1, node.2⟩)
  else known

theorem foldl_writeInto_of_others {sessionId : String} {nodes : List (String × NodeMessage)}
    (h : ∀ node ∈ nodes, nodeOwner node.1 ≠ some sessionId) (known : Option UserRecord) :
    nodes.foldl (writeInto sessionId) known = known :=
  foldl_eq_self fun node hm => if_neg (h node hm)

/-- The record of a session that is not ours, after a message of the server. -/
def readMessage (sessionId : String) (known : Option UserRecord) (message : ServerMessage) :
    Option UserRecord :=
  if message.what = .resultDataItems then
    message.updatedNodes.foldl (writeInto sessionId)
      (message.removedDataItems.foldl (dropInto sessionId) known)
  else known

namespace ConnectionWorld

theorem handleNodeRemoved_localSessionId (w : ConnectionWorld) (nodePath : String) :
    (w.handleNodeRemoved nodePath).localSessionId = w.localSessionId := by
  rw [(w.handleNodeRemoved_effect nodePath).toServerConnection]

theorem handleNodeRemoved_findUser (w : ConnectionWorld) (nodePath : String)
    (hs : sessionId ≠ "") : (w.handleNodeRemoved nodePath).users.findUser sessionId =
      dropInto sessionId (w.users.findUser sessionId) nodePath := by
  rw [dropInto]
  simp only [handleNodeRemoved]
  split
  · next hdepth =>
    rw [if_neg fun h => h.1 hdepth]
    split
    · split <;> rfl
    · rfl
  · next hdepth =>
    split
    · next hstays =>
      rw [if_neg fun h => by rw [hstays] at h; exact absurd h.2.1 Bool.false_ne_true]
    · next hgone =>
      have hgone : isUserGone nodePath = true := Bool.eq_true_of_not_eq_false hgone
      split
      · next hnobody =>
        rw [if_neg fun h => hs (h.2.2.symm.trans hnobody)]
      · by_cases ho : extractSessionId nodePath = sessionId
        · rw [if_pos ⟨hdepth, hgone, ho⟩, ho]
          cases hu : w.users.get? sessionId with
          | none =>
            simp only [UserRegistry.removeUser, hu, Option.map_none]
            exact hu
          | some user =>
            simp only [UserRegistry.removeUser, hu, Option.map_some]
            exact (UserRegistry.findUser_remove w.users sessionId sessionId).trans (if_pos rfl)
        · rw [if_neg fun h => ho h.2.2]
          cases hu : w.users.get? (extractSessionId nodePath) with
          | none => simp only [UserRegistry.removeUser, hu, Option.map_none]
          | some user =>
            simp only [UserRegistry.removeUser, hu, Option.map_some]
            exact (UserRegistry.findUser_remove w.users _ sessionId).trans (if_neg ho)

theorem handleNodeUpdated_findUser (w : ConnectionWorld) (node : String × NodeMessage)
    (hl : sessionId ≠ w.localSessionId) :
    (w.handleNodeUpdated node.1 node.2).users.findUser sessionId =
      writeInto sessionId (w.users.findUser sessionId) node := by
  refine (w.applyUpdate_findUser ⟨node.1, node.2⟩ sessionId).trans ?_
  rw [readInto, writeInto]
  exact if_congr (and_iff_left hl) rfl rfl

theorem foldl_handleNodeRemoved_findUser (w : ConnectionWorld) (hs : sessionId ≠ "")
    (nodePaths : List String) :
    (nodePaths.foldl handleNodeRemoved w).localSessionId = w.localSessionId ∧
      (nodePaths.foldl handleNodeRemoved w).users.findUser sessionId =
        nodePaths.foldl (dropInto sessionId) (w.users.findUser sessionId) := by
  induction nodePaths generalizing w with
  | nil => exact ⟨rfl, rfl⟩
  | cons nodePath nodePaths ih =>
    obtain ⟨hlocal, hfind⟩ := ih (w.handleNodeRemoved nodePath)
    rw [List.foldl_cons, List.foldl_cons, ← w.handleNodeRemoved_findUser nodePath hs]
    exact ⟨hlocal.trans (w.handleNodeRemoved_localSessionId nodePath), hfind⟩

theorem foldl_handleNodeUpdated_findUser (w : ConnectionWorld) (hl : sessionId ≠ w.localSessionId)
    (nodes : List (String × NodeMessage)) :
    (nodes.foldl (fun w node => w.handleNodeUpdated node.1 node.2) w).users.findUser sessionId =
      nodes.foldl (writeInto sessionId) (w.users.findUser sessionId) := by
  induction nodes generalizing w with
  | nil => rfl
  | cons node nodes ih =>
    have hlocal : (w.handleNodeUpdated node.1 node.2).localSessionId = w.localSessionId :=
      w.applyUpdate_localSessionId ⟨node.1, node.2⟩
    rw [List.foldl_cons, List.foldl_cons, ← w.handleNodeUpdated_findUser node hl]
    exact ih _ (hlocal.symm ▸ hl)

theorem messageReceived_users (w : ConnectionWorld) (now : UInt64) {message : ServerMessage}
    (h : message.what ≠ .resultDataItems) : (w.messageReceived now message).users = w.users := by
  rw [messageReceived]
  split
  · next hwhat => exact absurd hwhat h
  · rw [handleParameters]
    split <;> rfl
  · rw [handleResultPong]
    split
    · split <;> rfl
    · rfl
  · rw [handleChatText]
    split
    · split <;> rfl
    · rfl
  · rw [handlePing]
    split <;> rfl
  · rw [handlePong]
    split <;> rfl
  · rfl

theorem messageReceived_findUser (w : ConnectionWorld) (now : UInt64) (message : ServerMessage)
    (hs : sessionId ≠ "") (hl : sessionId ≠ w.localSessionId) :
    (w.messageReceived now message).users.findUser sessionId =
      readMessage sessionId (w.users.findUser sessionId) message := by
  rw [readMessage]
  split
  · next hwhat =>
    obtain ⟨hlocal, hfind⟩ := w.foldl_handleNodeRemoved_findUser hs message.removedDataItems
    rw [messageReceived, hwhat]
    change (w.handleDataItems message).users.findUser sessionId = _
    rw [handleDataItems, foldl_handleNodeUpdated_findUser _ (hlocal.symm ▸ hl), hfind]
  · next hwhat => rw [w.messageReceived_users now hwhat]

end ConnectionWorld

end

theorem nameNode_fields (c : ServerConnection) :
    c.nameNode.findString fieldName = some c.localUserName ∧
      c.nameNode.findInt32 fieldPort = some c.advertisedPort ∧
      publishedInstallId c.nameNode = some c.installId ∧
      publishedVersion c.nameNode = some (hituxShareName ++ " v" ++ hituxShareVersionString) ∧
      c.nameNode.findBool fieldBot = none ∧
      c.nameNode.findBool fieldSupportsPartialHashing = none ∧
      c.nameNode.findBool fieldSupportsSsl = none ∧
      c.nameNode.findBool fieldSupportsRanges = none := by
  have hname : c.nameNode = ⟨(), [(fieldName, .string c.localUserName),
      (fieldPort, .int32 c.advertisedPort), (fieldInstallId, .int64 c.installId.toInt64.toInt),
      (fieldVersionName, .string hituxShareName),
      (fieldVersionNumber, .string hituxShareVersionString)]⟩ := rfl
  rw [hname]
  refine ⟨rfl, rfl, ?_, rfl, rfl, rfl, rfl, rfl⟩
  change some (Int64.ofInt c.installId.toInt64.toInt).toUInt64 = _
  rw [Int64.ofInt_toInt]
  rfl

theorem UserRecord.readName_nameNode [MuscleLibrary] (user : UserRecord) (c : ServerConnection)
    (hhost : (getPathClause hostNameDepth nodePath).map firstClause = some host) :
    user.readName nodePath c.nameNode =
      { user with
        hostName := host
        userName := c.localUserName
        port := c.advertisedPort
        installId := c.installId
        clientVersion := hituxShareName ++ " v" ++ hituxShareVersionString } := by
  obtain ⟨hname, hport, hinstall, hversion, hbot, hpartial, hssl, hranges⟩ := nameNode_fields c
  rw [readName, hhost, hname, hport, hinstall, hversion, hbot, hpartial, hssl, hranges]
  rfl

end HiTuxShare
