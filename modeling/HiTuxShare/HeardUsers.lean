import HiTuxShare.EventLog
import HiTuxShare.SessionSteps

namespace HiTuxShare
set_option autoImplicit true

/-- The users as a listener knows them who only hears of what happens to them. -/
def UserRegistry.heard (users : UserRegistry) : ConnectionOccurrence → UserRegistry
  | .userUpdated user _ => users.put user.sessionId user
  | .userLeft user => users.remove user.sessionId
  | .connectionStateChanged .disconnected => .empty
  | _ => users

/-- Whether a session comes or goes, for all of its comings and goings since the last login. -/
def noteComing (sessionId : String) (comings : List Bool) : ConnectionOccurrence → List Bool
  | .connectionStateChanged .connected => []
  | .userUpdated user true => if user.sessionId = sessionId then comings ++ [true] else comings
  | .userLeft user => if user.sessionId = sessionId then comings ++ [false] else comings
  | _ => comings

def comings (history : List ConnectionOccurrence) (sessionId : String) : List Bool :=
  history.foldl (noteComing sessionId) []

theorem comings_append (history later : List ConnectionOccurrence) (sessionId : String) :
    comings (history ++ later) sessionId =
      later.foldl (noteComing sessionId) (comings history sessionId) :=
  List.foldl_append

def ServerConnectionEvent.received (e : ServerConnectionEvent) : Option ServerMessage :=
  match e.call with
  | .messageReceived message => some message
  | _ => none

namespace ConnectionOccurrence

/-- It is about no user. -/
def isSilent : ConnectionOccurrence → Bool
  | .userUpdated .. | .userLeft _ | .connectionStateChanged _ => false
  | _ => true

/-- If it is about a user, then about one whose session ID satisfies `P`. -/
def IsAbout (P : String → Prop) : ConnectionOccurrence → Prop
  | .userUpdated user _ | .userLeft user => P user.sessionId
  | _ => True

theorem IsQuiet.silent {o : ConnectionOccurrence} (h : o.IsQuiet) : o.isSilent = true := by
  cases o with
  | userUpdated user isNewUser | userLeft user | connectionStateChanged state => cases h
  | _ => rfl

theorem heard_of_silent {o : ConnectionOccurrence} (h : o.isSilent = true)
    (users : UserRegistry) : users.heard o = users := by
  cases o with
  | userUpdated user isNewUser | userLeft user | connectionStateChanged state => cases h
  | _ => rfl

theorem noteComing_of_silent {o : ConnectionOccurrence} (h : o.isSilent = true)
    (sessionId : String) (comings : List Bool) : noteComing sessionId comings o = comings := by
  cases o with
  | userUpdated user isNewUser | userLeft user | connectionStateChanged state => cases h
  | _ => rfl

theorem isAbout_of_silent {o : ConnectionOccurrence} (h : o.isSilent = true)
    (P : String → Prop) : o.IsAbout P := by
  cases o with
  | userUpdated user isNewUser | userLeft user | connectionStateChanged state => cases h
  | _ => trivial

theorem IsOffline.heard_empty {o : ConnectionOccurrence} (h : o.IsOffline) :
    UserRegistry.heard .empty o = .empty := by
  rcases h with hquiet | ⟨state, -, rfl⟩
  · exact heard_of_silent hquiet.silent .empty
  · cases state <;> rfl

theorem IsOffline.noteComing {o : ConnectionOccurrence} (h : o.IsOffline) (sessionId : String)
    (comings : List Bool) : HiTuxShare.noteComing sessionId comings o = comings := by
  rcases h with hquiet | ⟨state, hstate, rfl⟩
  · exact noteComing_of_silent hquiet.silent sessionId comings
  · cases state with
    | connected => exact absurd rfl hstate
    | _ => rfl

theorem IsOffline.isAbout {o : ConnectionOccurrence} (h : o.IsOffline) (P : String → Prop) :
    o.IsAbout P := by
  rcases h with hquiet | ⟨state, -, rfl⟩
  · exact isAbout_of_silent hquiet.silent P
  · trivial

theorem IsLogin.heard_eq {o : ConnectionOccurrence} (h : o.IsLogin state) (users : UserRegistry) :
    users.heard o = users := by
  rcases h with hquiet | ⟨-, rfl⟩
  · exact heard_of_silent hquiet.silent users
  · rfl

theorem IsLogin.noteComing_nil {o : ConnectionOccurrence} (h : o.IsLogin state)
    (sessionId : String) : HiTuxShare.noteComing sessionId [] o = [] := by
  rcases h with hquiet | ⟨-, rfl⟩
  · exact noteComing_of_silent hquiet.silent sessionId []
  · rfl

theorem IsLogin.isAbout {o : ConnectionOccurrence} (h : o.IsLogin state) (P : String → Prop) :
    o.IsAbout P := by
  rcases h with hquiet | ⟨-, rfl⟩
  · exact isAbout_of_silent hquiet.silent P
  · trivial

end ConnectionOccurrence

open ConnectionOccurrence

namespace ConnectionWorld

/-- The listener hears of all that happens to the users, and of no sessions but those of `P`. -/
def Heard (P : String → Prop) (w w' : ConnectionWorld) : Prop :=
  ∃ later, w'.history = w.history ++ later ∧ (∀ o ∈ later, o.IsAbout P) ∧
    later.foldl UserRegistry.heard w.users = w'.users

variable {P : String → Prop}

theorem Heard.refl (P : String → Prop) (w : ConnectionWorld) : Heard P w w :=
  ⟨[], (List.append_nil _).symm, List.forall_mem_nil _, rfl⟩

theorem Heard.note {w w' : ConnectionWorld} (h : Heard P w w') {users : UserRegistry}
    (ho : UserRegistry.heard w'.users o = users) (hP : o.IsAbout P) :
    Heard P w ({ w' with users }.note o) := by
  obtain ⟨later, hlater, habout, hheard⟩ := h
  refine ⟨later ++ [o], ?_, fun o' hm => ?_, ?_⟩
  · change w'.history ++ [o] = _
    rw [hlater, List.append_assoc]
  · rcases List.mem_append.mp hm with hm | hm
    · exact habout o' hm
    · rw [List.mem_singleton.mp hm]
      exact hP
  · rw [List.foldl_append, hheard]
    exact ho

/-- Users are listed while connected only, each after a coming that no going has followed. -/
structure UsersAreTracked (w : ConnectionWorld) : Prop where
  keyed : w.users.Keyed
  offline : w.connectionState ≠ .connected → w.users = .empty
  alternates : ∀ sessionId, Alternates (comings w.history sessionId)
  present : w.connectionState = .connected → ∀ sessionId,
    isPresent (comings w.history sessionId) = (w.users.findUser sessionId).isSome

theorem usersAreTracked_new : UsersAreTracked new where
  keyed sessionId user hu := by cases hu
  offline _ := rfl
  alternates _ := List.IsChain.singleton false
  present hc := by cases hc

theorem UsersAreTracked.silent {w w' : ConnectionWorld} (h : UsersAreTracked w)
    (hq : DoesOnly (·.isSilent = true) w w') (husers : w'.users = w.users)
    (hstate : w'.connectionState = w.connectionState) : UsersAreTracked w' ∧ Heard P w w' := by
  obtain ⟨later, hlater, hsilent⟩ := hq
  have hsame (sessionId : String) : comings w'.history sessionId = comings w.history sessionId := by
    rw [hlater, comings_append]
    exact foldl_eq_self fun o hm => noteComing_of_silent (hsilent o hm) sessionId _
  refine ⟨⟨?_, ?_, fun sessionId => ?_, fun hc sessionId => ?_⟩, later, hlater,
    fun o hm => isAbout_of_silent (hsilent o hm) P, ?_⟩
  · exact husers ▸ h.keyed
  · rw [hstate, husers]
    exact h.offline
  · exact hsame sessionId ▸ h.alternates sessionId
  · rw [hsame, husers]
    exact h.present (hstate ▸ hc) sessionId
  · rw [husers]
    exact foldl_eq_self fun o hm => heard_of_silent (hsilent o hm) w.users

/-- At the end of a connection everybody is gone at once, and nobody is reported as leaving. -/
theorem UsersAreTracked.disconnects {w w' : ConnectionWorld} (h : UsersAreTracked w)
    (hq : Disconnects w w') (husers : w'.users = .empty)
    (hstate : w'.connectionState ≠ .connected) : UsersAreTracked w' ∧ Heard P w w' := by
  obtain ⟨later, hlater, hoffline, hdown⟩ := hq
  have hempty (o : ConnectionOccurrence) (hm : o ∈ later) :
      UserRegistry.heard .empty o = .empty := (hoffline o hm).heard_empty
  refine ⟨⟨husers ▸ UserRegistry.keyed_empty, fun _ => husers, fun sessionId => ?_,
    fun hc => absurd hc hstate⟩, later, hlater, fun o hm => (hoffline o hm).isAbout P, ?_⟩
  · rw [hlater, comings_append, foldl_eq_self fun o hm => (hoffline o hm).noteComing sessionId _]
    exact h.alternates sessionId
  · rw [husers]
    by_cases hup : w.connectionState = .disconnected
    · rw [h.offline (hup ▸ nofun)]
      exact foldl_eq_self hempty
    · exact foldl_eq_of_reset (fun _ => rfl) hempty (hdown hup) w.users

theorem UsersAreTracked.logsIn {w w' : ConnectionWorld} (h : UsersAreTracked w)
    (hq : LogsIn w w') (husers : w'.users = w.users) (hstate : w'.connectionState = .connected) :
    UsersAreTracked w' ∧ Heard P w w' := by
  obtain ⟨later, hlater, hlogin, hup⟩ := hq
  by_cases hc : w.connectionState = .connected
  · apply h.silent ⟨later, hlater, fun o hm => ?_⟩ husers (hstate.trans hc.symm)
    exact ((hlogin o hm).resolve_right fun hnew => hnew.1 hc).silent
  · have hnobody := h.offline hc
    have hnew (sessionId : String) : comings w'.history sessionId = [] := by
      rw [hlater, comings_append]
      exact foldl_eq_of_reset (fun _ => rfl) (fun o hm => (hlogin o hm).noteComing_nil sessionId)
        (hup hc) _
    refine ⟨⟨?_, fun hdown => absurd hstate hdown, fun sessionId => ?_, fun _ sessionId => ?_⟩,
      later, hlater, fun o hm => (hlogin o hm).isAbout P, ?_⟩
    · exact husers ▸ h.keyed
    · rw [hnew]
      exact List.IsChain.singleton false
    · rw [hnew, husers, hnobody]
      rfl
    · rw [husers]
      exact foldl_eq_self fun o hm => (hlogin o hm).heard_eq w.users

theorem comings_concat (history : List ConnectionOccurrence) (o : ConnectionOccurrence)
    (sessionId : String) :
    comings (history ++ [o]) sessionId = noteComing sessionId (comings history sessionId) o :=
  comings_append history [o] sessionId

theorem UsersAreTracked.turn {w : ConnectionWorld} (h : UsersAreTracked w)
    (hc : w.connectionState = .connected) (sessionId : String) (coming : Bool)
    {users : UserRegistry} (hkeyed : users.Keyed) {o : ConnectionOccurrence}
    (ho : ∀ sessionId' comings, noteComing sessionId' comings o =
      if sessionId = sessionId' then comings ++ [coming] else comings)
    (hturn : (w.users.findUser sessionId).isSome ≠ coming)
    (husers : ∀ sessionId', (users.findUser sessionId').isSome =
      if sessionId = sessionId' then coming else (w.users.findUser sessionId').isSome) :
    UsersAreTracked ({ w with users }.note o) := by
  have hcomings (sessionId' : String) : comings ({ w with users }.note o).history sessionId' =
      if sessionId = sessionId' then comings w.history sessionId' ++ [coming]
      else comings w.history sessionId' := (comings_concat ..).trans (ho _ _)
  refine ⟨hkeyed, fun hdown => absurd hc hdown, fun sessionId' => ?_, fun _ sessionId' => ?_⟩
  · rw [hcomings]
    split
    · next heq =>
      apply (h.alternates sessionId').concat
      rw [h.present hc, ← heq]
      exact hturn
    · exact h.alternates sessionId'
  · refine Eq.trans ?_ (husers sessionId').symm
    rw [hcomings]
    split
    · exact isPresent_concat ..
    · exact h.present hc sessionId'

theorem UsersAreTracked.stay {w : ConnectionWorld} (h : UsersAreTracked w)
    (hc : w.connectionState = .connected) {users : UserRegistry} (hkeyed : users.Keyed)
    {o : ConnectionOccurrence} (ho : ∀ sessionId comings, noteComing sessionId comings o = comings)
    (husers : ∀ sessionId,
      (users.findUser sessionId).isSome = (w.users.findUser sessionId).isSome) :
    UsersAreTracked ({ w with users }.note o) := by
  have hcomings (sessionId : String) : comings ({ w with users }.note o).history sessionId =
      comings w.history sessionId := (comings_concat ..).trans (ho _ _)
  refine ⟨hkeyed, fun hdown => absurd hc hdown, fun sessionId => ?_, fun _ sessionId => ?_⟩
  · rw [hcomings]
    exact h.alternates sessionId
  · rw [hcomings]
    exact (h.present hc sessionId).trans (husers sessionId).symm

theorem UsersAreTracked.updateUser {w : ConnectionWorld} (h : UsersAreTracked w)
    (hc : w.connectionState = .connected) (user : UserRecord) :
    UsersAreTracked (w.updateUser user.sessionId user) := by
  have hkeyed := h.keyed.put user
  have hfind (sessionId : String) := w.users.findUser_put user.sessionId sessionId user
  cases hknown : w.users.findUser user.sessionId with
  | none =>
    rw [ConnectionWorld.updateUser, hknown]
    apply h.turn hc user.sessionId true hkeyed
    · exact fun _ _ => rfl
    · rw [hknown]
      exact Bool.false_ne_true
    · intro sessionId
      rw [hfind]
      split <;> rfl
  | some known =>
    rw [ConnectionWorld.updateUser, hknown]
    apply h.stay hc hkeyed fun _ _ => rfl
    intro sessionId
    rw [hfind]
    split
    · next heq =>
      rw [← heq, hknown]
      rfl
    · rfl

theorem UsersAreTracked.dropUser {w : ConnectionWorld} (h : UsersAreTracked w)
    (hc : w.connectionState = .connected) (hu : w.users.findUser user.sessionId = some user) :
    UsersAreTracked (w.dropUser user.sessionId user) := by
  apply h.turn hc user.sessionId false (h.keyed.remove _)
  · exact fun _ _ => rfl
  · rw [hu]
    exact nofun
  · intro sessionId
    rw [UserRegistry.findUser_remove]
    split <;> rfl

/-- A message comes while connected only. -/
def HearsWhileConnected (w : ConnectionWorld) (e : ServerConnectionEvent) : Prop :=
  e.received ≠ none → w.connectionState = .connected

instance (w : ConnectionWorld) : DecidablePred w.HearsWhileConnected := fun e =>
  inferInstanceAs (Decidable (e.received ≠ none → w.connectionState = .connected))

variable [MuscleLibrary]

/-- One node of a message, as a part of the message that `w` has received. -/
theorem UsersAreTracked.nodeEffect {w w₁ w₂ : ConnectionWorld} (heffect : NodeEffect w₁ nodePath w₂)
    (hP : P (extractSessionId nodePath))
    (h : UsersAreTracked w₁ ∧ w₁.connectionState = .connected ∧ Heard P w w₁) :
    UsersAreTracked w₂ ∧ w₂.connectionState = .connected ∧ Heard P w w₂ := by
  obtain ⟨htracked, hc, hheard⟩ := h
  have hsilent {o : ConnectionOccurrence} (ho : o.isSilent = true) :
      UsersAreTracked (w₁.note o) ∧ (w₁.note o).connectionState = .connected ∧
        Heard P w (w₁.note o) :=
    ⟨(htracked.silent (P := P) (DoesOnly.note (.refl _ w₁) ho) rfl rfl).1, hc,
      hheard.note (heard_of_silent ho w₁.users) (isAbout_of_silent ho P)⟩
  cases heffect with
  | nothing => exact ⟨htracked, hc, hheard⟩
  | resultAdded result sharerName => exact hsilent rfl
  | resultRemoved sessionId fileName => exact hsilent rfl
  | @userUpdated user hs hl hu =>
    have hid : extractSessionId nodePath = user.sessionId := by
      rw [hu, recordOf]
      cases hknown : w₁.users.findUser (extractSessionId nodePath) with
      | none => rfl
      | some known => exact (htracked.keyed _ known hknown).symm
    rw [hid] at hP ⊢
    exact ⟨htracked.updateUser hc user, hc, hheard.note rfl hP⟩
  | @userLeft user hu =>
    have hid := (htracked.keyed _ user hu).symm
    rw [hid] at hu hP ⊢
    exact ⟨htracked.dropUser hc hu, hc, hheard.note rfl hP⟩

theorem handle_tracked {w : ConnectionWorld} (e : ServerConnectionEvent) (h : UsersAreTracked w)
    (hm : w.HearsWhileConnected e)
    (hP : ∀ message ∈ e.received, ∀ nodePath ∈ message.nodePaths, P (extractSessionId nodePath)) :
    UsersAreTracked (w.handle e) ∧ Heard P w (w.handle e) := by
  have hstep := w.handle_step e
  generalize w.handle e = w' at hstep
  cases hstep with
  | speaks hspeaks hsigns => exact h.silent (.one rfl rfl) rfl rfl
  | keeps hs hq | queries hactive hs hq | identifies hassigned hs hq =>
    apply h.silent (hq.imp fun o => IsQuiet.silent)
    · exact congrArg SessionState.users hs
    · exact congrArg SessionState.connectionState hs
  | connects hs hq =>
    exact h.logsIn hq (congrArg SessionState.users hs) (congrArg SessionState.connectionState hs)
  | closes hstate hs hq =>
    apply h.disconnects hq (congrArg SessionState.users hs)
    exact fun hc => hstate ((congrArg SessionState.connectionState hs).symm.trans hc)
  | loses hloses hs hq =>
    apply h.disconnects hq (congrArg SessionState.users hs)
    exact fun hc => nomatch (congrArg SessionState.connectionState hs).symm.trans hc
  | @readsNodes message hcall =>
    have hreceived : e.received = some message := by rw [ServerConnectionEvent.received, hcall]
    have hc : w.connectionState = .connected := hm (hreceived ▸ nofun)
    have hstart : UsersAreTracked w ∧ w.connectionState = .connected ∧ Heard P w w :=
      ⟨h, hc, .refl P w⟩
    have hnode (nodePath : String) (hpath : nodePath ∈ message.nodePaths) (w₁ w₂ : ConnectionWorld)
        (heffect : NodeEffect w₁ nodePath w₂) :=
      UsersAreTracked.nodeEffect (w := w) heffect (hP message hreceived nodePath hpath)
    have hread := handleDataItems_of_effect hnode hstart
    exact ⟨hread.1, hread.2.2⟩

end ConnectionWorld

end HiTuxShare
