import HiTuxShare.SessionSteps

namespace HiTuxShare
set_option autoImplicit true

/-- Whoever has a session ID has been told it. -/
def SessionState.IdIsAssigned (s : SessionState) : Prop :=
  s.localSessionId ≠ "" → s.hasPublishedIdentity = true

namespace ConnectionOccurrence

/-- Nothing that is sent is meant for other clients. -/
def IsUnsigned (o : ConnectionOccurrence) : Prop :=
  ∀ message, o = .sent message → message.what.isRelayed = false

theorem IsQuiet.unsigned {o : ConnectionOccurrence} (h : o.IsQuiet) : o.IsUnsigned := by
  rintro message rfl
  rwa [IsQuiet, isQuiet, Bool.not_eq_true'] at h

theorem IsOffline.unsigned {o : ConnectionOccurrence} (h : o.IsOffline) : o.IsUnsigned := by
  rcases h with h | ⟨state, -, rfl⟩
  · exact h.unsigned
  · nofun

theorem IsLogin.unsigned {o : ConnectionOccurrence} (h : o.IsLogin state) : o.IsUnsigned := by
  rcases h with h | ⟨-, rfl⟩
  · exact h.unsigned
  · nofun

end ConnectionOccurrence

open ConnectionOccurrence

theorem NodeEffect.unsigned [MuscleLibrary] (h : NodeEffect w nodePath w') :
    DoesOnly IsUnsigned w w' := by
  cases h with
  | nothing => exact .refl _ w
  | resultAdded result sharerName => exact .one rfl nofun
  | resultRemoved sessionId fileName => exact .one rfl nofun
  | userUpdated hs hl hu => exact .one rfl nofun
  | userLeft hu => exact .one rfl nofun

namespace ConnectionWorld

/-- Each chat, ping or pong of a step bears our session ID, which we have been told. -/
def SpeaksAttributably [MuscleLibrary] (w : ConnectionWorld) (e : ServerConnectionEvent) : Prop :=
  ∀ message, .sent message ∈ (w.handle e).history.drop w.history.length →
    message.what.isRelayed = true →
      message.strings fieldSession = [w.localSessionId] ∧ w.localSessionId ≠ "" ∧
        w.hasPublishedIdentity = true

variable [MuscleLibrary]

theorem handle_of_speaks {w : ConnectionWorld} (h : Speaks w e) :
    ∃ message, Signs w message ∧ w.handle e = w.sendToServer message := by
  obtain ⟨call, network, now⟩ := e
  cases call with
  | sendChatText targetSessionId text =>
    obtain ⟨hconnected, htext⟩ := h
    have hsends : ¬(w.isConnected = false ∨ text = "") := by simp [hconnected, htext]
    simp only [handle, sendChatText, if_neg hsends]
    refine ⟨_, ?_, rfl⟩
    split <;> exact ⟨rfl, rfl⟩
  | sendPing targetSessionId =>
    have hsends : ¬w.isConnected = false := ne_false_of_eq_true h
    simp only [handle, sendPing, if_neg hsends]
    exact ⟨_, ⟨rfl, rfl⟩, rfl⟩
  | messageReceived message =>
    obtain ⟨hrun, hwhat, hsession⟩ := h
    obtain ⟨replyToSessionId, hsession⟩ := Option.isSome_iff_exists.mp hsession
    simp only [handle, deliver, hrun, ↓reduceIte, messageReceived, hwhat, handlePing, hsession]
    exact ⟨_, w.pongFor_signs now message replyToSessionId, rfl⟩
  | _ => cases h

theorem handle_unsigned {w : ConnectionWorld} (h : ¬Speaks w e) :
    DoesOnly IsUnsigned w (w.handle e) := by
  have hstep := w.handle_step e
  generalize w.handle e = w' at hstep
  cases hstep with
  | speaks hspeaks hm => exact absurd hspeaks h
  | keeps hs hq | queries hactive hs hq | identifies hassigned hs hq =>
    exact hq.imp fun o => IsQuiet.unsigned
  | connects hs hq =>
    obtain ⟨later, hlater, hlogin, -⟩ := hq
    exact ⟨later, hlater, fun o hm => (hlogin o hm).unsigned⟩
  | closes hstate hs hq | loses hloses hs hq =>
    obtain ⟨later, hlater, hoffline, -⟩ := hq
    exact ⟨later, hlater, fun o hm => (hoffline o hm).unsigned⟩
  | readsNodes hcall =>
    exact handleDataItems_of_effect (fun nodePath _ w₁ w₂ heffect hw => hw.trans heffect.unsigned)
      (.refl _ w)

theorem handle_idIsAssigned {w : ConnectionWorld} (e : ServerConnectionEvent)
    (h : w.session.IdIsAssigned) : (w.handle e).session.IdIsAssigned := by
  have hstep := w.handle_step e
  generalize w.handle e = w' at hstep
  cases hstep with
  | speaks hspeaks hm => exact h
  | readsNodes hcall =>
    rw [handleDataItems_session]
    exact h
  | keeps hs hq | connects hs hq | queries hactive hs hq =>
    rw [hs]
    exact h
  | identifies hassigned hs hq =>
    rw [hs]
    exact fun _ => rfl
  | closes hstate hs hq | loses hloses hs hq =>
    rw [hs]
    exact fun hid => absurd rfl hid

theorem speaksAttributably_iff {w : ConnectionWorld} (e : ServerConnectionEvent)
    (h : w.session.IdIsAssigned) :
    w.SpeaksAttributably e ↔ (w.Speaks e → w.localSessionId ≠ "") := by
  by_cases hs : w.Speaks e
  · obtain ⟨message, ⟨hrelayed, hsigned⟩, hsent⟩ := handle_of_speaks hs
    have hnews : (w.handle e).history.drop w.history.length = [.sent message] := by
      rw [hsent]
      exact List.drop_left
    rw [SpeaksAttributably, hnews]
    constructor
    · intro ha _
      exact (ha message List.mem_cons_self hrelayed).2.1
    · intro hid message' hm _
      cases List.mem_singleton.mp hm
      exact ⟨hsigned, hid hs, h (hid hs)⟩
  · refine iff_of_true (fun message hm hrelayed => ?_) fun hs' => absurd hs' hs
    have hunsigned := (handle_unsigned hs).drop _ hm message rfl
    cases hunsigned.symm.trans hrelayed

end ConnectionWorld

/-- A line of chat is sent before the server has told us who we are. -/
theorem chat_before_identity : ¬ ∀ (_ : MuscleLibrary) (es : List ServerConnectionEvent),
    ConnectionWorld.machine.EveryStep ConnectionWorld.SpeaksAttributably .new es := by
  intro h
  have hspoken := (h plainLibrary [{ call := .connectToServer "server" 2960 },
    { call := .sessionConnected "server" }, { call := .sendChatText "*" "hello" }]).2.2.1
  exact (hspoken _ List.mem_cons_self rfl).2.1 (by decide)

/-- Every chat, ping and pong of a run is attributable exactly if we have a session ID whenever one
of them is asked for. -/
theorem outgoing_is_attributable [MuscleLibrary] (es : List ServerConnectionEvent) :
    ConnectionWorld.machine.EveryStep ConnectionWorld.SpeaksAttributably .new es ↔
      ConnectionWorld.machine.EveryStep (fun w e => w.Speaks e → w.localSessionId ≠ "")
        .new es :=
  EventMachine.everyStep_congr_of_invariant (J := fun w => w.session.IdIsAssigned)
    (fun _ e => ConnectionWorld.handle_idIsAssigned e)
    (fun _ e => ConnectionWorld.speaksAttributably_iff e) (fun hid => absurd rfl hid) es

end HiTuxShare
