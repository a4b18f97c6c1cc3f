import HiTuxShare.ConnectedServers
import HiTuxShare.KeyedMerge
import HiTuxShare.RememberedServers

namespace HiTuxShare
set_option autoImplicit true

namespace ChatWindowWorld

section
variable [QtWidgets]

/-- A server on the list that is to go and may go. -/
def takenAway (w : ChatWindowWorld) (serversToRemove : List String) (server : String) : Bool :=
  serversToRemove.any fun candidate =>
    !w.isInUse candidate && decide (equalsIgnoreCase server candidate)

def keptServers (w : ChatWindowWorld) (serversToRemove : List String) : List String :=
  w.settings.getServerList.filter fun server => !w.takenAway serversToRemove server

/-- What is new to the list, in the order it is appended in. -/
def newServers (w : ChatWindowWorld) (serversToAdd serversToRemove : List String) : List String :=
  KeyedMerge.newOnes foldCase (w.keptServers serversToRemove) serversToAdd

/-- What the list is made to be. -/
def mergedServers (w : ChatWindowWorld) (serversToAdd serversToRemove : List String) :
    List String :=
  w.keptServers serversToRemove ++ w.newServers serversToAdd serversToRemove

/-- What a fetched list is to do to the one that is offered. -/
structure MergesFetched (w : ChatWindowWorld) (serversToAdd serversToRemove : List String) :
    Prop where
  removed : ∀ server ∈ (w.serverListReceived serversToAdd serversToRemove).settings.getServerList,
    (∃ candidate ∈ serversToRemove, equalsIgnoreCase server candidate) →
      w.isInUse server = true ∨ ∃ candidate ∈ serversToAdd, equalsIgnoreCase server candidate
  added : (w.settings.getServerList.map foldCase).Nodup → ∀ candidate ∈ serversToAdd,
    ((w.serverListReceived serversToAdd serversToRemove).settings.getServerList.filter
      fun server => equalsIgnoreCase server candidate).length = 1
  others : (w.keptServers serversToRemove).Sublist
    (w.serverListReceived serversToAdd serversToRemove).settings.getServerList
  again : ((w.serverListReceived serversToAdd serversToRemove).serverListReceived serversToAdd
    serversToRemove).settings.getServerList =
      (w.serverListReceived serversToAdd serversToRemove).settings.getServerList

theorem foldl_remove (w : ChatWindowWorld) (serversToRemove serverList : List String) :
    serversToRemove.foldl
        (fun serverList candidate =>
          if w.isInUse candidate then serverList
          else serverList.filter fun server => ¬equalsIgnoreCase server candidate) serverList =
      serverList.filter fun server => !w.takenAway serversToRemove server := by
  induction serversToRemove generalizing serverList with
  | nil => exact (List.filter_eq_self.mpr fun _ _ => rfl).symm
  | cons candidate serversToRemove ih =>
    rw [List.foldl_cons, ih]
    by_cases hu : w.isInUse candidate = true
    · rw [if_pos hu]
      apply List.filter_congr
      intro server _
      simp only [takenAway, List.any_cons, hu, Bool.not_true, Bool.false_and, Bool.false_or]
    · rw [if_neg hu, List.filter_filter]
      apply List.filter_congr
      intro server _
      simp only [takenAway, List.any_cons, Bool.eq_false_of_not_eq_true hu, Bool.not_false,
        Bool.true_and, Bool.not_or, decide_not, Bool.and_comm]

omit [QtWidgets] in
theorem foldl_add (serversToAdd serverList : List String) :
    serversToAdd.foldl
        (fun serverList candidate =>
          if serverList.any fun server => equalsIgnoreCase server candidate then serverList
          else serverList ++ [candidate]) serverList =
      serverList ++ KeyedMerge.newOnes foldCase serverList serversToAdd := by
  rw [← KeyedMerge.foldl_append_new]
  congr 1
  funext serverList candidate
  have hknown : (serverList.any fun server => equalsIgnoreCase server candidate) = true ↔
      foldCase candidate ∈ serverList.map foldCase := by
    rw [List.any_eq_true, List.mem_map]
    simp only [decide_eq_true_iff]
    rfl
  by_cases hm : foldCase candidate ∈ serverList.map foldCase
  · rw [if_pos hm, if_pos (hknown.mpr hm)]
  · rw [if_neg hm, if_neg (mt hknown.mp hm)]

theorem mergedServers_ne (w : ChatWindowWorld) {serversToAdd : List String}
    (hadd : "" ∉ serversToAdd) (serversToRemove : List String) :
    "" ∉ w.mergedServers serversToAdd serversToRemove := by
  intro hm
  rcases List.mem_append.mp hm with hm | hm
  · exact w.settings.getServerList_ne (List.mem_of_mem_filter hm)
  · exact hadd (KeyedMerge.newOnes_subset _ _ _ hm)

theorem populateServerList_settings (w : ChatWindowWorld) :
    w.populateServerList.settings = w.settings := by
  rw [populateServerList]
  split <;> rfl

theorem populateServerList_box (w : ChatWindowWorld) : w.populateServerList.serverAddressBox =
    if w.serverAddressBox ≠ "" then w.serverAddressBox else w.settings.getServerAddress := by
  rw [populateServerList]
  split <;> rfl

theorem serverListReceived_cases (w : ChatWindowWorld)
    (serversToAdd serversToRemove : List String) :
    (w.keptServers serversToRemove = w.settings.getServerList ∧
      w.newServers serversToAdd serversToRemove = [] ∧
      (w.serverListReceived serversToAdd serversToRemove).settings = w.settings ∧
      (w.serverListReceived serversToAdd serversToRemove).serverAddressBox =
        w.serverAddressBox) ∨
    (w.serverListReceived serversToAdd serversToRemove).settings =
        w.settings.setServerList (w.mergedServers serversToAdd serversToRemove) ∧
      (w.serverListReceived serversToAdd serversToRemove).serverAddressBox =
        w.populateServerList.serverAddressBox := by
  simp only [serverListReceived, foldl_remove, foldl_add]
  split
  · next hsame =>
    left
    obtain ⟨hadded, hremoved⟩ := hsame
    have hnew : w.newServers serversToAdd serversToRemove = [] := by
      rw [List.length_append, Nat.add_sub_cancel_left] at hadded
      exact List.length_eq_zero_iff.mp hadded
    have hkept : w.keptServers serversToRemove = w.settings.getServerList := by
      apply List.filter_eq_self.mpr
      apply List.length_filter_eq_length_iff.mp
      exact Nat.le_antisymm (List.length_filter_le ..) (Nat.sub_eq_zero_iff_le.mp hremoved)
    exact ⟨hkept, hnew, rfl, rfl⟩
  · right
    constructor
    · exact populateServerList_settings _
    · rw [populateServerList_box, ← w.settings.getServerAddress_setServerList]
      exact populateServerList_box _

/-- What is offered afterwards; an emptied list is taken for one that was never stored. -/
theorem getServerList_serverListReceived (w : ChatWindowWorld) {serversToAdd : List String}
    (hadd : "" ∉ serversToAdd) (serversToRemove : List String) :
    (w.serverListReceived serversToAdd serversToRemove).settings.getServerList =
      if w.mergedServers serversToAdd serversToRemove = [] then
        ApplicationSettings.defaultServerList
      else w.mergedServers serversToAdd serversToRemove := by
  rcases w.serverListReceived_cases serversToAdd serversToRemove with ⟨hkept, hnew, hs, -⟩ | ⟨hs, -⟩
  · rw [hs, mergedServers, hkept, hnew, List.append_nil, if_neg w.settings.getServerList_ne_nil]
  · have hne := w.mergedServers_ne hadd serversToRemove
    have hread : (w.settings.setServerList (w.mergedServers serversToAdd
        serversToRemove)).getStringList ApplicationSettings.fieldServerList =
          w.mergedServers serversToAdd serversToRemove :=
      w.settings.getStringList_setStringList _ fun server hm he => hne (he ▸ hm)
    rw [hs, ApplicationSettings.getServerList, hread]

theorem isInUse_congr (w : ChatWindowWorld) (h : equalsIgnoreCase server server') :
    w.isInUse server = w.isInUse server' := by
  have hsame (other : String) :
      equalsIgnoreCase server other ↔ equalsIgnoreCase server' other :=
    ⟨h.symm.trans, h.trans⟩
  simp only [isInUse, hsame]

theorem takenAway_congr (w : ChatWindowWorld) (serversToRemove : List String)
    (h : foldCase server = foldCase server') :
    w.takenAway serversToRemove server = w.takenAway serversToRemove server' := by
  have hsame (other : String) :
      equalsIgnoreCase server other ↔ equalsIgnoreCase server' other :=
    ⟨h.symm.trans, h.trans⟩
  simp only [takenAway, hsame]

theorem takenAway_iff {w : ChatWindowWorld} {serversToRemove : List String} {server : String} :
    w.takenAway serversToRemove server = true ↔ ∃ candidate ∈ serversToRemove,
      w.isInUse candidate = false ∧ equalsIgnoreCase server candidate := by
  rw [takenAway, List.any_eq_true]
  simp only [Bool.and_eq_true, Bool.not_eq_true', decide_eq_true_iff]

theorem isInUse_of_same {w w' : ChatWindowWorld} (hc : w'.connections = w.connections)
    (hb : w'.serverAddressBox = w.serverAddressBox) (server : String) :
    w'.isInUse server = w.isInUse server := by
  rw [isInUse, isInUse, getSelectedServerAddress, getSelectedServerAddress, hc, hb]

omit [QtWidgets] in
theorem eq_empty_of_equalsIgnoreCase (h : equalsIgnoreCase server "") : server = "" := by
  have hnil : server.toList = [] := List.map_eq_nil_iff.mp h
  exact String.toList_inj.mp hnil

theorem populateServerList_protects (w : ChatWindowWorld) (hne : server ≠ "")
    (h : w.isInUse server = true) : w.populateServerList.isInUse server = true := by
  by_cases hbox : w.serverAddressBox ≠ ""
  · have hsame : w.populateServerList = w := if_pos hbox
    rw [hsame]
    exact h
  · have hselected : w.getSelectedServerAddress = "" := by
      rw [getSelectedServerAddress, not_not.mp hbox]
      rfl
    rw [isInUse, hselected, Bool.or_eq_true, decide_eq_true_iff] at h
    rw [isInUse, populateServerList_connections, Bool.or_eq_true]
    exact .inr (h.resolve_left fun he => hne (eq_empty_of_equalsIgnoreCase he))

theorem populateServerList_takenAway (w : ChatWindowWorld) {serversToRemove : List String}
    (hne : server ≠ "") (h : w.populateServerList.takenAway serversToRemove server = true) :
    w.takenAway serversToRemove server = true := by
  obtain ⟨candidate, hm, hfree, hsame⟩ := takenAway_iff.mp h
  apply takenAway_iff.mpr
  refine ⟨candidate, hm, ?_, hsame⟩
  apply Bool.eq_false_of_not_eq_true
  intro hused
  rw [← w.isInUse_congr hsame] at hused
  rw [← w.populateServerList.isInUse_congr hsame, w.populateServerList_protects hne hused] at hfree
  cases hfree

/-- The two lists do not work against each other, nor against the built-in one. -/
structure FetchedAgree (w : ChatWindowWorld) (serversToAdd serversToRemove : List String) :
    Prop where
  somethingLeft : serversToAdd = [] →
    (∀ server ∈ w.settings.getServerList, w.takenAway serversToRemove server = true) →
      ∀ server ∈ ApplicationSettings.defaultServerList,
        w.takenAway serversToRemove server = false
  order : (KeyedMerge.newOnes foldCase [] serversToAdd).Pairwise fun server later =>
    w.populateServerList.takenAway serversToRemove server = true →
      (∃ known ∈ w.settings.getServerList, w.takenAway serversToRemove known = false ∧
        equalsIgnoreCase known later) ∨
      w.populateServerList.takenAway serversToRemove later = true

theorem mem_keptServers_keys {w : ChatWindowWorld} {serversToRemove : List String}
    {server : String} : foldCase server ∈ (w.keptServers serversToRemove).map foldCase ↔
      ∃ known ∈ w.settings.getServerList, w.takenAway serversToRemove known = false ∧
        equalsIgnoreCase known server := by
  rw [List.mem_map]
  constructor
  · rintro ⟨known, hm, hk⟩
    obtain ⟨hlisted, hstays⟩ := List.mem_filter.mp hm
    exact ⟨known, hlisted, by simpa using hstays, hk⟩
  · rintro ⟨known, hlisted, hstays, hk⟩
    exact ⟨known, List.mem_filter.mpr ⟨hlisted, by simp [hstays]⟩, hk⟩

/-- Only servers that are new to the list matter for the order. -/
theorem order_iff (w : ChatWindowWorld) {serversToAdd : List String}
    (hadd : "" ∉ serversToAdd) (serversToRemove : List String) :
    ((KeyedMerge.newOnes foldCase [] serversToAdd).Pairwise fun server later =>
      w.populateServerList.takenAway serversToRemove server = true →
        (∃ known ∈ w.settings.getServerList, w.takenAway serversToRemove known = false ∧
          equalsIgnoreCase known later) ∨
        w.populateServerList.takenAway serversToRemove later = true) ↔
    (w.newServers serversToAdd serversToRemove).Pairwise fun server later =>
      w.populateServerList.takenAway serversToRemove server = true →
        w.populateServerList.takenAway serversToRemove later = true := by
  have hnew {server : String} (hm : server ∈ KeyedMerge.newOnes foldCase [] serversToAdd)
      (ht : w.populateServerList.takenAway serversToRemove server = true) :
      foldCase server ∉ (w.keptServers serversToRemove).map foldCase := by
    intro hk
    have hne : server ≠ "" := by
      rintro rfl
      exact hadd (KeyedMerge.newOnes_subset _ _ _ hm)
    obtain ⟨known, -, hstays, hsame⟩ := mem_keptServers_keys.mp hk
    have htaken := w.populateServerList_takenAway hne ht
    rw [← w.takenAway_congr serversToRemove hsame, hstays] at htaken
    cases htaken
  rw [newServers, KeyedMerge.newOnes_eq_filter (w.keptServers serversToRemove),
    List.pairwise_filter]
  simp only [decide_eq_true_iff]
  constructor
  · intro h
    apply h.imp
    intro server later hrule _ hlater ht
    exact (hrule ht).resolve_left fun hknown => hlater (mem_keptServers_keys.mpr hknown)
  · intro h
    apply List.Pairwise.imp_of_mem _ h
    intro server later hm _ hrule ht
    by_cases hlater : foldCase later ∈ (w.keptServers serversToRemove).map foldCase
    · exact .inl (mem_keptServers_keys.mp hlater)
    · exact .inr (hrule (hnew hm ht) hlater ht)

theorem mergedServers_again (w : ChatWindowWorld) (serversToAdd serversToRemove : List String)
    {w' : ChatWindowWorld}
    (hlist : w'.settings.getServerList = w.mergedServers serversToAdd serversToRemove)
    (hless : ∀ server, server ≠ "" → w'.takenAway serversToRemove server = true →
      w.takenAway serversToRemove server = true) :
    w'.mergedServers serversToAdd serversToRemove = w.keptServers serversToRemove ++
      ((w.newServers serversToAdd serversToRemove).filter
        (fun server => !w'.takenAway serversToRemove server) ++
      (w.newServers serversToAdd serversToRemove).filter (w'.takenAway serversToRemove)) := by
  have hstay : (w.keptServers serversToRemove).filter
      (fun server => !w'.takenAway serversToRemove server) = w.keptServers serversToRemove := by
    apply List.filter_eq_self.mpr
    intro server hm
    obtain ⟨hlisted, hkept⟩ := List.mem_filter.mp hm
    have hne : server ≠ "" := by
      rintro rfl
      exact w.settings.getServerList_ne hlisted
    cases ht : w'.takenAway serversToRemove server with
    | false => rfl
    | true =>
      rw [hless server hne ht] at hkept
      cases hkept
  have hkept : w'.keptServers serversToRemove = w.keptServers serversToRemove ++
      (w.newServers serversToAdd serversToRemove).filter
        fun server => !w'.takenAway serversToRemove server := by
    rw [keptServers, hlist, mergedServers, List.filter_append, hstay]
  have hkeyed : ∀ server server', foldCase server = foldCase server' →
      w'.takenAway serversToRemove server = w'.takenAway serversToRemove server' :=
    fun _ _ h => w'.takenAway_congr serversToRemove h
  have hagain := KeyedMerge.newOnes_again hkeyed (w.keptServers serversToRemove) serversToAdd
  rw [mergedServers, newServers, hkept, List.append_assoc]
  exact congrArg _ (congrArg _ hagain)

theorem serverListReceived_takenAway (w : ChatWindowWorld) {serversToAdd : List String}
    {serversToRemove : List String} (hne : server ≠ "")
    (h : (w.serverListReceived serversToAdd serversToRemove).takenAway serversToRemove server =
      true) : w.takenAway serversToRemove server = true := by
  have hconnections := w.serverListReceived_connections serversToAdd serversToRemove
  rcases w.serverListReceived_cases serversToAdd serversToRemove with ⟨-, -, -, hbox⟩ | ⟨-, hbox⟩
  · simp only [takenAway, isInUse_of_same hconnections hbox] at h
    exact h
  · have hsame := hconnections.trans w.populateServerList_connections.symm
    simp only [takenAway, isInUse_of_same hsame hbox] at h
    exact w.populateServerList_takenAway hne h

/-- A list that was not emptied is the same after the second time exactly if nothing that goes
again stands in front of something that stays. -/
theorem again_iff (w : ChatWindowWorld) {serversToAdd : List String}
    (hadd : "" ∉ serversToAdd) {serversToRemove : List String}
    (hleft : w.mergedServers serversToAdd serversToRemove ≠ []) :
    ((w.serverListReceived serversToAdd serversToRemove).serverListReceived serversToAdd
        serversToRemove).settings.getServerList =
        (w.serverListReceived serversToAdd serversToRemove).settings.getServerList ↔
      (w.newServers serversToAdd serversToRemove).Pairwise fun server later =>
        w.populateServerList.takenAway serversToRemove server = true →
          w.populateServerList.takenAway serversToRemove later = true := by
  have hlist := w.getServerList_serverListReceived hadd serversToRemove
  rw [if_neg hleft] at hlist
  have hmerged := w.mergedServers_again serversToAdd serversToRemove hlist
    fun server hne ht => w.serverListReceived_takenAway hne ht
  have hleft' : (w.serverListReceived serversToAdd serversToRemove).mergedServers serversToAdd
      serversToRemove ≠ [] := by
    intro hnil
    obtain ⟨hkept, rfl⟩ := KeyedMerge.merge_eq_nil_iff.mp hnil
    have hnews : w.newServers [] serversToRemove = [] := rfl
    rw [hnil, hnews] at hmerged
    apply hleft
    rw [mergedServers, (List.append_eq_nil_iff.mp hmerged.symm).1]
    rfl
  rw [getServerList_serverListReceived _ hadd, if_neg hleft', hlist, hmerged, mergedServers,
    List.append_cancel_left_eq]
  apply KeyedMerge.filter_append_filter_iff.trans
  rcases w.serverListReceived_cases serversToAdd serversToRemove with ⟨-, hnew, -, -⟩ | ⟨-, hbox⟩
  · rw [hnew]
    exact iff_of_true List.Pairwise.nil List.Pairwise.nil
  · have hconnections := (w.serverListReceived_connections serversToAdd serversToRemove).trans
      w.populateServerList_connections.symm
    simp only [takenAway, isInUse_of_same hconnections hbox]

theorem keptServers_eq_nil_iff {w : ChatWindowWorld} {serversToRemove : List String} :
    w.keptServers serversToRemove = [] ↔
      ∀ server ∈ w.settings.getServerList, w.takenAway serversToRemove server = true := by
  rw [keptServers, List.filter_eq_nil_iff]
  simp only [Bool.not_eq_true', Bool.not_eq_false]

theorem isInUse_of_stays {w : ChatWindowWorld} {serversToRemove : List String}
    (hstays : w.takenAway serversToRemove server = false) (hm : candidate ∈ serversToRemove)
    (hsame : equalsIgnoreCase server candidate) : w.isInUse server = true := by
  by_contra hfree
  have hcandidate : w.isInUse candidate = false := by
    rw [← w.isInUse_congr hsame]
    exact Bool.eq_false_of_not_eq_true hfree
  rw [takenAway_iff.mpr ⟨candidate, hm, hcandidate, hsame⟩] at hstays
  cases hstays

theorem mergedServers_removed {w : ChatWindowWorld} {serversToAdd serversToRemove : List String}
    (hm : server ∈ w.mergedServers serversToAdd serversToRemove)
    (hremove : ∃ candidate ∈ serversToRemove, equalsIgnoreCase server candidate) :
    w.isInUse server = true ∨ ∃ candidate ∈ serversToAdd, equalsIgnoreCase server candidate := by
  rcases List.mem_append.mp hm with hm | hm
  · obtain ⟨candidate, hcandidate, hsame⟩ := hremove
    have hstays : w.takenAway serversToRemove server = false := by
      simpa using (List.mem_filter.mp hm).2
    exact .inl (isInUse_of_stays hstays hcandidate hsame)
  · exact .inr ⟨server, KeyedMerge.newOnes_subset _ _ _ hm, rfl⟩

theorem mergedServers_added {w : ChatWindowWorld} {serversToAdd serversToRemove : List String}
    (hnodup : (w.settings.getServerList.map foldCase).Nodup) (hm : candidate ∈ serversToAdd) :
    ((w.mergedServers serversToAdd serversToRemove).filter
      fun server => equalsIgnoreCase server candidate).length = 1 := by
  have hkept : ((w.keptServers serversToRemove).map foldCase).Nodup :=
    hnodup.sublist (List.filter_sublist.map foldCase)
  exact KeyedMerge.count_key_eq_one (KeyedMerge.merge_nodup hkept serversToAdd)
    (KeyedMerge.mem_merge hm _)

/-- An emptied list gives way to the built-in one, whatever was to go of that. -/
theorem mergesFetched_emptied_iff {w : ChatWindowWorld} {serversToRemove : List String}
    (hkept : w.keptServers serversToRemove = []) :
    MergesFetched w [] serversToRemove ↔ ∀ server ∈ ApplicationSettings.defaultServerList,
      w.takenAway serversToRemove server = false := by
  have hlist := w.getServerList_serverListReceived List.not_mem_nil serversToRemove
  have hempty : w.mergedServers [] serversToRemove = [] :=
    KeyedMerge.merge_eq_nil_iff.mpr ⟨hkept, rfl⟩
  rw [if_pos hempty] at hlist
  constructor
  · intro h server hm
    apply Bool.eq_false_of_not_eq_true
    intro ht
    obtain ⟨candidate, hc, hfree, hsame⟩ := takenAway_iff.mp ht
    rcases h.removed server (hlist ▸ hm) ⟨candidate, hc, hsame⟩ with hused | ⟨_, hnone, _⟩
    · rw [w.isInUse_congr hsame, hfree] at hused
      cases hused
    · exact absurd hnone List.not_mem_nil
  · intro h
    constructor
    · intro server hm hremove
      rw [hlist] at hm
      obtain ⟨candidate, hc, hsame⟩ := hremove
      exact .inl (isInUse_of_stays (h server hm) hc hsame)
    · exact fun _ _ hm => absurd hm List.not_mem_nil
    · rw [hkept]
      exact List.nil_sublist _
    · have hstay : (w.serverListReceived [] serversToRemove).mergedServers [] serversToRemove =
          ApplicationSettings.defaultServerList := by
        apply (List.append_nil _).trans
        rw [keptServers, hlist]
        apply List.filter_eq_self.mpr
        intro server hm
        have hne : server ≠ "" := by
          rintro rfl
          exact absurd hm (by decide)
        rw [Bool.not_eq_true']
        apply Bool.eq_false_of_not_eq_true
        intro ht
        have htaken := w.serverListReceived_takenAway hne ht
        rw [h server hm] at htaken
        cases htaken
      rw [getServerList_serverListReceived _ List.not_mem_nil, hstay, hlist]
      exact if_neg (List.cons_ne_nil _ _)

/-- A fetched list does to the offered one what it is to do exactly if it agrees with itself and
leaves something. -/
theorem mergesFetched_iff (w : ChatWindowWorld) (serversToAdd serversToRemove : List String)
    (hadd : "" ∉ serversToAdd) : MergesFetched w serversToAdd serversToRemove ↔
      FetchedAgree w serversToAdd serversToRemove := by
  by_cases hleft : w.mergedServers serversToAdd serversToRemove = []
  · obtain ⟨hkept, rfl⟩ := KeyedMerge.merge_eq_nil_iff.mp hleft
    rw [mergesFetched_emptied_iff hkept]
    constructor
    · exact fun h => ⟨fun _ _ => h, List.Pairwise.nil⟩
    · exact fun h => h.somethingLeft rfl (keptServers_eq_nil_iff.mp hkept)
  · have hlist := w.getServerList_serverListReceived hadd serversToRemove
    rw [if_neg hleft] at hlist
    constructor
    · intro h
      constructor
      · rintro rfl hall
        exact absurd (KeyedMerge.merge_eq_nil_iff.mpr ⟨keptServers_eq_nil_iff.mpr hall, rfl⟩) hleft
      · exact (w.order_iff hadd serversToRemove).mpr ((w.again_iff hadd hleft).mp h.again)
    · intro h
      constructor
      · intro server hm
        rw [hlist] at hm
        exact mergedServers_removed hm
      · intro hnodup candidate hm
        rw [hlist]
        exact mergedServers_added hnodup hm
      · rw [hlist]
        exact List.sublist_append_left _ _
      · exact (w.again_iff hadd hleft).mpr ((w.order_iff hadd serversToRemove).mp h.order)

end

section
attribute [local instance] plainWidgets

/-- A server is added and another one goes that is neither selected nor in use. -/
theorem mergesFetched_replaced : MergesFetched
    { settings := .ofWhat (), settingsFile := .ofWhat () }
    ["beshare.example.org"] ["BeShare.AgmSmith.ca"] := by
  apply (mergesFetched_iff _ _ _ (by decide)).mpr
  constructor
  · intro h
    cases h
  · exact List.pairwise_singleton _ _

/-- Both built-in servers are to go, and are offered again at once. -/
theorem removed_servers_come_back : ¬ MergesFetched
    { settings := .ofWhat (), settingsFile := .ofWhat () }
    [] ["beshare.tycomsystems.com", "beshare.agmsmith.ca"] := by
  intro h
  have hin := h.removed "beshare.agmsmith.ca" (by decide +kernel)
    ⟨_, List.mem_cons_of_mem _ List.mem_cons_self, rfl⟩
  exact absurd hin (by decide +kernel)

end

end ChatWindowWorld

end HiTuxShare
