import HiTuxShare.SessionSteps

namespace HiTuxShare
set_option autoImplicit true

namespace SessionState

/-- From the moment we have been told our session ID, nobody of that ID is in the list. -/
def NotInOwnList (s : SessionState) : Prop :=
  s.hasPublishedIdentity = true → s.users.findUser s.localSessionId = none

instance : DecidablePred NotInOwnList := fun s =>
  inferInstanceAs (Decidable (s.hasPublishedIdentity = true →
    s.users.findUser s.localSessionId = none))

/-- Nobody is listed without a session ID. -/
def AllHaveIds (s : SessionState) : Prop := s.users.findUser "" = none

end SessionState

theorem NodeEffect.keepsOut [MuscleLibrary] (h : NodeEffect w nodePath w')
    (hs : sessionId = "" ∨ sessionId = w.localSessionId)
    (hout : w.users.findUser sessionId = none) : w'.users.findUser sessionId = none := by
  cases h with
  | nothing => exact hout
  | resultAdded result sharerName => exact hout
  | resultRemoved sessionId' fileName => exact hout
  | userUpdated hne hl hu =>
    refine (Hashtable.get?_put_of_ne _ _ ?_).trans hout
    rintro rfl
    exact hs.elim hne hl
  | userLeft hu =>
    refine (UserRegistry.findUser_remove ..).trans ?_
    split
    · rfl
    · exact hout

namespace ConnectionWorld

/-- Until we know which session is ours, it is listed like any other. -/
def OwnIdIsUnknown (w : ConnectionWorld) (e : ServerConnectionEvent) : Prop :=
  ∀ sessionId, w.assignedSessionId e = some sessionId → w.users.findUser sessionId = none

variable [MuscleLibrary]

theorem handleDataItems_keepsOut {w : ConnectionWorld} (message : ServerMessage)
    (hs : sessionId = "" ∨ sessionId = w.localSessionId)
    (hout : w.users.findUser sessionId = none) :
    (w.handleDataItems message).users.findUser sessionId = none := by
  let KeptOut (w' : ConnectionWorld) : Prop :=
    w'.localSessionId = w.localSessionId ∧ w'.users.findUser sessionId = none
  have hstep (nodePath : String) (_ : nodePath ∈ message.nodePaths) (w₁ w₂ : ConnectionWorld)
      (heffect : NodeEffect w₁ nodePath w₂) (h : KeptOut w₁) : KeptOut w₂ := by
    have hsame := congrArg ServerConnection.localSessionId heffect.toServerConnection
    exact ⟨hsame.trans h.1, heffect.keepsOut (h.1 ▸ hs) h.2⟩
  exact (handleDataItems_of_effect hstep ⟨rfl, hout⟩).2

theorem handle_of_assigned {w : ConnectionWorld} (h : w.assignedSessionId e = some sessionId) :
    (w.handle e).session =
      { w.session with localSessionId := sessionId, hasPublishedIdentity := true } := by
  obtain ⟨call, network, now⟩ := e
  cases call with
  | messageReceived message =>
    simp only [assignedSessionId] at h
    split at h
    · next hanswer =>
      obtain ⟨⟨localSessionId, serverHostName⟩, hroot, rfl⟩ := Option.map_eq_some_iff.mp h
      simp only [handle, deliver, hanswer.1, ↓reduceIte, messageReceived, hanswer.2,
        handleParameters, hroot]
      rfl
    · cases h
  | _ => cases h

theorem handle_allHaveIds {w : ConnectionWorld} (e : ServerConnectionEvent)
    (h : w.session.AllHaveIds) : (w.handle e).session.AllHaveIds := by
  have hstep := w.handle_step e
  generalize w.handle e = w' at hstep
  cases hstep with
  | speaks hspeaks hm => exact h
  | readsNodes hcall => exact handleDataItems_keepsOut _ (.inl rfl) h
  | closes hstate hs hq | loses hloses hs hq =>
    rw [hs]
    rfl
  | keeps hs hq | connects hs hq | queries hactive hs hq | identifies hassigned hs hq =>
    rw [hs]
    exact h

theorem handle_notInOwnList {w : ConnectionWorld} (e : ServerConnectionEvent)
    (h : w.session.NotInOwnList) :
    (w.handle e).session.NotInOwnList ↔ w.OwnIdIsUnknown e := by
  cases ha : w.assignedSessionId e with
  | some sessionId =>
    rw [handle_of_assigned ha, OwnIdIsUnknown, ha]
    constructor
    · rintro hn _ ⟨⟩
      exact hn rfl
    · exact fun hn _ => hn sessionId rfl
  | none =>
    have hunknown : w.OwnIdIsUnknown e := fun sessionId hs => by cases ha.symm.trans hs
    refine iff_of_true ?_ hunknown
    have hstep := w.handle_step e
    generalize w.handle e = w' at hstep
    cases hstep with
    | keeps hs hq | connects hs hq | queries hactive hs hq =>
      rw [hs]
      exact h
    | speaks hspeaks hm => exact h
    | closes hstate hs hq | loses hloses hs hq =>
      rw [hs]
      exact fun _ => rfl
    | identifies hassigned hs hq => cases ha.symm.trans hassigned
    | readsNodes hcall =>
      rw [handleDataItems_session]
      exact fun hp => handleDataItems_keepsOut _ (.inr rfl) (h hp)

end ConnectionWorld

/-- Our own name node comes before the answer that says which session is ours. -/
theorem own_session_is_listed : ¬ ∀ (_ : MuscleLibrary) (es : List ServerConnectionEvent),
    ConnectionWorld.machine.EveryState (fun w => w.session.NotInOwnList) .new es := by
  intro h
  have hlisted := (h plainLibrary [{ call := .connectToServer "server" 2960 },
    { call := .sessionConnected "server" },
    { call := .messageReceived {
        what := .resultDataItems
        fields := []
        nodes := [("/host/5/beshare/name", (Message.ofWhat ()).addString fieldName "binky")] } },
    { call := .messageReceived {
        what := .resultParameters
        fields := []
        sessionRoot := some "/host/5" } }]).last
  exact absurd hlisted (by decide)

/-- We stay out of our own list in a run exactly if every answer about our session finds nobody of
that ID in it. -/
theorem never_in_own_user_list [MuscleLibrary] (es : List ServerConnectionEvent) :
    ConnectionWorld.machine.EveryState (fun w => w.session.NotInOwnList) .new es ↔
      ConnectionWorld.machine.EveryStep ConnectionWorld.OwnIdIsUnknown .new es :=
  EventMachine.everyState_iff_everyStep
    (J := fun w => w.session.AllHaveIds) (fun _ e => ConnectionWorld.handle_allHaveIds e)
    (fun _ e _ => ConnectionWorld.handle_notInOwnList e) rfl nofun

end HiTuxShare
