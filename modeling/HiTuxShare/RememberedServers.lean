import HiTuxShare.ApplicationSettings
import HiTuxShare.EventMachine
import HiTuxShare.RecentList

namespace HiTuxShare
set_option autoImplicit true

namespace ApplicationSettings

/-- Each event is one call of `RememberServer`. -/
def rememberMachine : EventMachine ApplicationSettings String := ⟨rememberServer⟩

/-- The address comes first, then what was listed before without its copies. -/
def promotedServers (settings : ApplicationSettings) (serverAddress : String) : List String :=
  serverAddress :: settings.getServerList.filter fun known => ¬ equalsIgnoreCase known serverAddress

/-- A call promotes an address, and only the end of the list may be cut. -/
structure Promotes (settings : ApplicationSettings) (serverAddress : String) : Prop where
  promoted : (settings.rememberServer serverAddress).getServerList =
    (settings.promotedServers serverAddress).take maximumRememberedServers
  known : ∀ known ∈ settings.getServerList, ¬ equalsIgnoreCase known serverAddress →
    known ∈ (settings.rememberServer serverAddress).getServerList ∨
      known ∈ (settings.promotedServers serverAddress).drop maximumRememberedServers

/-- So does every call of a sequence, which leaves what was remembered last in front, once. -/
structure ListsByUse (settings : ApplicationSettings) (addresses : List String) : Prop where
  steps : rememberMachine.EveryStep Promotes settings addresses
  recent : (RecentList.mostRecent foldCase addresses).take maximumRememberedServers <+:
    (rememberMachine.run settings addresses).getServerList
  once : ∀ address ∈ addresses, ((rememberMachine.run settings addresses).getServerList.filter
    fun known => equalsIgnoreCase known address).length ≤ 1

theorem getStringList_ne (settings : ApplicationSettings) (fieldName : String) :
    ∀ value ∈ settings.getStringList fieldName, value ≠ "" := by
  intro value hm
  exact of_decide_eq_true (List.mem_filter.mp hm).2

theorem getStringList_setStringList (settings : ApplicationSettings) (fieldName : String)
    {values : List String} (h : ∀ value ∈ values, value ≠ "") :
    (settings.setStringList fieldName values).getStringList fieldName = values := by
  rw [getStringList, strings_setStringList]
  apply List.filter_eq_self.mpr
  intro value hm
  exact decide_eq_true (h value hm)

theorem getStringList_rememberInList (settings : ApplicationSettings) (fieldName : String)
    (hv : value ≠ "") (maxItems : Nat) :
    (settings.rememberInList fieldName value maxItems).getStringList fieldName =
      RecentList.remember foldCase maxItems (settings.getStringList fieldName) value := by
  rw [rememberInList, if_neg hv]
  apply getStringList_setStringList
  intro known hm
  rcases List.mem_cons.mp (List.mem_of_mem_take hm) with rfl | hm
  · exact hv
  · exact settings.getStringList_ne fieldName known (List.mem_of_mem_filter hm)

theorem getStringList_rememberServer (settings : ApplicationSettings) (hv : address ≠ "") :
    (settings.rememberServer address).getStringList fieldServerList =
      RecentList.remember foldCase maximumRememberedServers
        (settings.getStringList fieldServerList) address :=
  settings.getStringList_rememberInList fieldServerList hv maximumRememberedServers

theorem getServerList_of_ne {settings : ApplicationSettings}
    (h : settings.getStringList fieldServerList ≠ []) :
    settings.getServerList = settings.getStringList fieldServerList := if_neg h

theorem getServerAddress_setServerList (settings : ApplicationSettings)
    (serverList : List String) :
    (settings.setServerList serverList).getServerAddress = settings.getServerAddress :=
  getString_congr (settings.items_setStringList_of_ne Message.asString (by decide) serverList) _

theorem getServerList_ne (settings : ApplicationSettings) : "" ∉ settings.getServerList := by
  intro hm
  rw [getServerList] at hm
  split at hm
  · exact absurd hm (by decide)
  · exact settings.getStringList_ne _ _ hm rfl

theorem getServerList_ne_nil (settings : ApplicationSettings) :
    settings.getServerList ≠ [] := by
  rw [getServerList]
  split
  · exact List.cons_ne_nil _ _
  · next h => exact h

theorem rememberServer_stored (settings : ApplicationSettings) (hv : address ≠ "") :
    (settings.rememberServer address).getStringList fieldServerList ≠ [] := by
  rw [getStringList_rememberServer settings hv]
  exact List.cons_ne_nil _ _

/-- Of the two built-in servers one has to stay. -/
theorem defaultServerList_promoted (address : String) :
    (defaultServerList.filter fun known => ¬ equalsIgnoreCase known address) ≠ [] := by
  intro h
  rw [List.filter_eq_nil_iff] at h
  have hsame (server : String) (hm : server ∈ defaultServerList) :
      equalsIgnoreCase server address := by
    simpa using h server hm
  have hfirst := hsame "beshare.tycomsystems.com" (by decide)
  have hsecond := hsame "beshare.agmsmith.ca" (by decide)
  exact absurd (hfirst.trans hsecond.symm) (by decide)

/-- The stored list is promoted in, not the one that is shown. -/
theorem promotes_iff (settings : ApplicationSettings) (hv : address ≠ "") :
    settings.Promotes address ↔ settings.getStringList fieldServerList ≠ [] := by
  have hafter : (settings.rememberServer address).getServerList =
      RecentList.remember foldCase maximumRememberedServers
        (settings.getStringList fieldServerList) address := by
    rw [getServerList_of_ne (settings.rememberServer_stored hv),
      getStringList_rememberServer settings hv]
  constructor
  · intro h hstored
    have hpromoted := h.promoted
    have hshown : settings.getServerList = defaultServerList := if_pos hstored
    rw [hafter, hstored, promotedServers, hshown] at hpromoted
    have hrest := List.tail_eq_of_cons_eq hpromoted
    have hnil := (List.take_eq_nil_iff.mp hrest.symm).resolve_left (by decide)
    exact defaultServerList_promoted address hnil
  · intro hstored
    have hshown := getServerList_of_ne hstored
    constructor
    · rw [hafter, promotedServers, hshown]
      rfl
    · intro known hm hk
      rw [hafter, promotedServers, hshown]
      rw [hshown] at hm
      have hkey : foldCase known ≠ foldCase address := hk
      exact RecentList.known_or_cut hm hkey maximumRememberedServers

theorem run_stored (settings : ApplicationSettings) {addresses : List String}
    (hne : "" ∉ addresses) :
    (rememberMachine.run settings addresses).getStringList fieldServerList =
      addresses.foldl (RecentList.remember foldCase maximumRememberedServers)
        (settings.getStringList fieldServerList) := by
  induction addresses generalizing settings with
  | nil => rfl
  | cons address addresses ih =>
    rw [List.mem_cons, not_or] at hne
    rw [EventMachine.run_cons, ih _ hne.2, List.foldl_cons]
    exact congrArg (addresses.foldl _)
      (settings.getStringList_rememberServer fun h => hne.1 h.symm)

theorem run_ne (settings : ApplicationSettings) {addresses : List String}
    (hne : "" ∉ addresses) (h : settings.getStringList fieldServerList ≠ []) :
    (rememberMachine.run settings addresses).getStringList fieldServerList ≠ [] := by
  induction addresses generalizing settings with
  | nil => exact h
  | cons address addresses ih =>
    rw [List.mem_cons, not_or] at hne
    exact ih _ hne.2 (settings.rememberServer_stored fun he => hne.1 he.symm)

theorem run_promotes {settings : ApplicationSettings} {addresses : List String}
    (hne : "" ∉ addresses) (h : settings.getStringList fieldServerList ≠ []) :
    rememberMachine.EveryStep Promotes settings addresses := by
  induction addresses generalizing settings with
  | nil => trivial
  | cons address addresses ih =>
    rw [List.mem_cons, not_or] at hne
    have hv : address ≠ "" := fun he => hne.1 he.symm
    exact ⟨(promotes_iff settings hv).mpr h, ih hne.2 (settings.rememberServer_stored hv)⟩

/-- Once a list has been stored, a sequence of calls keeps it in the order of use. -/
theorem rememberServer_listsByUse_iff (settings : ApplicationSettings) (addresses : List String)
    (hne : "" ∉ addresses) : settings.ListsByUse addresses ↔
      addresses = [] ∨ settings.getStringList fieldServerList ≠ [] := by
  constructor
  · intro h
    cases addresses with
    | nil => exact .inl rfl
    | cons address addresses =>
      have hv : address ≠ "" := fun he => hne (he ▸ List.mem_cons_self)
      exact .inr ((promotes_iff settings hv).mp h.steps.1)
  · rintro (rfl | h)
    · exact ⟨trivial, List.nil_prefix, fun _ hm => absurd hm List.not_mem_nil⟩
    · have hrun := settings.run_stored hne
      have hshown : (rememberMachine.run settings addresses).getServerList =
          addresses.foldl (RecentList.remember foldCase maximumRememberedServers)
            (settings.getStringList fieldServerList) := by
        rw [← hrun]
        apply getServerList_of_ne
        exact run_ne settings hne h
      constructor
      · exact run_promotes hne h
      · rw [hshown]
        exact RecentList.mostRecent_prefix foldCase maximumRememberedServers _ addresses
      · intro address hm
        rw [hshown]
        exact RecentList.copies_foldl_remember hm maximumRememberedServers _

theorem rememberServer_listsByUse_stored :
    let settings := setServerList (.ofWhat ()) ["one.example.org", "two.example.org"]
    settings.ListsByUse ["Two.Example.Org", "three.example.org"] := by
  intro settings
  apply (rememberServer_listsByUse_iff settings _ (by decide)).mpr
  right
  decide

/-- With nothing stored, remembering a server takes the other built-in one away. -/
theorem first_server_displaces_built_in : ¬ Promotes (.ofWhat ()) "beshare.tycomsystems.com" := by
  rw [promotes_iff _ (by decide)]
  decide

end ApplicationSettings

end HiTuxShare
