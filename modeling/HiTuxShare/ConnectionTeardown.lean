import HiTuxShare.SessionSteps

namespace HiTuxShare
set_option autoImplicit true

/-- Only a connected client has a query running. -/
def SessionState.QueryNeedsConnection (s : SessionState) : Prop :=
  s.queryActive = true → s.connectionState = .connected

namespace ConnectionWorld

/-- The state `DisconnectFromServer` leaves, and a listener who has been told. -/
structure TearsDown (w w' : ConnectionWorld) : Prop where
  session : w'.session = w.disconnectFromServer.session
  told : .queryResultsCleared ∈ w'.history.drop w.history.length

/-- It does what the two other ways to be disconnected are measured by. -/
theorem disconnectFromServer_tearsDown (w : ConnectionWorld) :
    TearsDown w w.disconnectFromServer := by
  refine ⟨rfl, ?_⟩
  rw [disconnectFromServer_history, List.drop_left, List.mem_append, List.mem_append]
  exact .inl (.inr List.mem_cons_self)

theorem setConnectionState_untold (w : ConnectionWorld) (state : ConnectionState) :
    DoesOnly (· ≠ .queryResultsCleared) w (w.setConnectionState state) := by
  rw [setConnectionState]
  split
  · exact .refl _ w
  · apply DoesOnly.one rfl
    rintro ⟨⟩

variable [MuscleLibrary]

/-- A loss leaves the login time and the query in place, and nobody tells the listener that its
results are gone. -/
theorem handle_of_loses {w : ConnectionWorld} (h : Loses w e) :
    (w.handle e).session = w.session.lost ∧
      DoesOnly (· ≠ .queryResultsCleared) w (w.handle e) := by
  obtain ⟨hrun, he⟩ := h
  obtain ⟨call, network, now⟩ := e
  cases call with
  | sessionDisconnected =>
    simp only [handle, deliver, hrun, ↓reduceIte]
    refine ⟨w.sessionDisconnected_session, .trans ?_ (setConnectionState_untold _ _)⟩
    apply DoesOnly.one rfl
    rintro ⟨⟩
  | sessionDetached =>
    simp only [handle, deliver, hrun, ↓reduceIte]
    refine ⟨w.sessionDetached_session he, ?_⟩
    rw [sessionDetached, if_pos he]
    refine .trans ?_ (setConnectionState_untold _ _)
    exact .of_history_eq _ rfl
  | _ => cases he

theorem not_tearsDown_of_loses {w : ConnectionWorld} (h : Loses w e) :
    ¬TearsDown w (w.handle e) :=
  fun ht => (handle_of_loses h).2.drop _ ht.told rfl

theorem queryNeedsConnection_of_not_loses {w : ConnectionWorld}
    (h : w.session.QueryNeedsConnection) (hl : ¬Loses w e) :
    (w.handle e).session.QueryNeedsConnection := by
  have hstep := w.handle_step e
  generalize w.handle e = w' at hstep
  cases hstep with
  | keeps hs hq => rwa [hs]
  | speaks hspeaks hm => exact h
  | closes hstate hs hq =>
    rw [hs]
    nofun
  | loses hloses hs hq => exact absurd hloses hl
  | connects hs hq =>
    rw [hs]
    exact fun _ => rfl
  | queries hactive hs hq =>
    rw [hs]
    exact hactive
  | identifies hassigned hs hq =>
    rw [hs]
    exact h
  | readsNodes hcall =>
    rw [handleDataItems_session]
    exact h

theorem queryNeedsConnection_iff {w : ConnectionWorld} (e : ServerConnectionEvent)
    (h : w.session.QueryNeedsConnection) :
    (w.handle e).session.QueryNeedsConnection ↔ (Loses w e → w.queryActive = false) := by
  by_cases hl : Loses w e
  · rw [(handle_of_loses hl).1]
    constructor
    · intro hq _
      by_contra ha
      cases hq (Bool.eq_true_of_not_eq_false ha)
    · intro hq ha
      exact absurd (hq hl) (ne_false_of_eq_true ha)
  · exact iff_of_true (queryNeedsConnection_of_not_loses h hl) fun hl' => absurd hl' hl

/-- All ways to be disconnected agree, and only a connected client has a query running. -/
def TeardownsAgree (es : List ServerConnectionEvent) : Prop :=
  machine.EveryStep (fun w e => Loses w e → TearsDown w (w.handle e)) new es ∧
    machine.EveryState (fun w => w.session.QueryNeedsConnection) new es

end ConnectionWorld

/-- The server goes away while a query runs. -/
theorem lost_connection_keeps_query : ¬ ∀ (_ : MuscleLibrary) (es : List ServerConnectionEvent),
    ConnectionWorld.TeardownsAgree es := by
  intro h
  have hquery := (h plainLibrary [{ call := .connectToServer "server" 2960 },
    { call := .sessionConnected "server" }, { call := .startQuery "*" "*" },
    { call := .sessionDisconnected }]).2.last
  cases hquery (by decide)

/-- The ways to be disconnected agree in a run exactly if no connection is ever lost, and a query
keeps to its connection exactly if every loss finds none. What a loss leaves in place is the login
time and the query. -/
theorem teardown_paths_agree [MuscleLibrary] (es : List ServerConnectionEvent) :
    (ConnectionWorld.TeardownsAgree es ↔
      ConnectionWorld.machine.EveryStep (fun w e => ¬w.Loses e) .new es) ∧
    (ConnectionWorld.machine.EveryState (fun w => w.session.QueryNeedsConnection) .new es ↔
      ConnectionWorld.machine.EveryStep (fun w e => w.Loses e → w.queryActive = false) .new es) ∧
    ∀ (w : ConnectionWorld) (e : ServerConnectionEvent), w.Loses e →
      (w.handle e).session = { w.disconnectFromServer.session with
        loginTime := w.loginTime
        queryActive := w.queryActive } := by
  have hstart : ConnectionWorld.new.session.QueryNeedsConnection := nofun
  have huntold (w : ConnectionWorld) (e : ServerConnectionEvent) :
      (w.Loses e → w.TearsDown (w.handle e)) ↔ ¬w.Loses e :=
    ⟨fun h hl => ConnectionWorld.not_tearsDown_of_loses hl (h hl), fun h hl => absurd hl h⟩
  have htold := EventMachine.everyStep_congr (m := ConnectionWorld.machine) huntold .new es
  refine ⟨?_, ?_, fun w e hl => ?_⟩
  · constructor
    · intro h
      exact htold.mp h.1
    · intro h
      exact ⟨htold.mpr h, EventMachine.everyState_of_invariant
        (fun w e hq hl => ConnectionWorld.queryNeedsConnection_of_not_loses hq hl) hstart h⟩
  · exact EventMachine.everyState_iff_everyStep (J := fun _ => True) (fun _ _ => id)
      (fun w e _ hq => ConnectionWorld.queryNeedsConnection_iff e hq) trivial hstart
  · rw [(ConnectionWorld.handle_of_loses hl).1, ConnectionWorld.disconnectFromServer_session]
    rfl

end HiTuxShare
