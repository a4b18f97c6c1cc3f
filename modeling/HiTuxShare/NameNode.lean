import HiTuxShare.EventLog
import HiTuxShare.NodeOrder

namespace HiTuxShare
set_option autoImplicit true

/-- What a record takes from the name node, with the values of a record that has seen none. -/
structure NameFields where
  userName : String := ""
  port : Int32 := 0
  installId : UInt64 := 0
  isBot : Bool := false
  supportsPartialHashing : Bool := false
  supportsSsl : Bool := false
  supportsRanges : Bool := false
  clientVersion : String := ""
  deriving DecidableEq

def UserRecord.nameFields (user : UserRecord) : NameFields where
  userName := user.userName
  port := user.port
  installId := user.installId
  isBot := user.isBot
  supportsPartialHashing := user.supportsPartialHashing
  supportsSsl := user.supportsSsl
  supportsRanges := user.supportsRanges
  clientVersion := user.clientVersion

/-- What a name node says, with the defaults for what it does not say. -/
def publishedNameFields (data : NodeMessage) : NameFields where
  userName := (data.findString fieldName).getD ""
  port := (data.findInt32 fieldPort).getD 0
  installId := (publishedInstallId data).getD 0
  isBot := (data.findBool fieldBot).getD false
  supportsPartialHashing := (data.findBool fieldSupportsPartialHashing).getD false
  supportsSsl := (data.findBool fieldSupportsSsl).getD false
  supportsRanges := (data.findBool fieldSupportsRanges).getD false
  clientVersion := (publishedVersion data).getD ""

/-- The node has the field, or what was said of it last before was the default, if anything was. -/
def Renews (pick : NodeMessage → Option α) (default : α) (earlier : List NodeMessage)
    (data : NodeMessage) : Prop :=
  pick data = none → (latest pick earlier).getD default = default

/-- Nothing of what earlier name nodes said is left over. -/
structure RenewsAll (earlier : List NodeMessage) (data : NodeMessage) : Prop where
  userName : Renews (·.findString fieldName) "" earlier data
  port : Renews (·.findInt32 fieldPort) 0 earlier data
  installId : Renews publishedInstallId 0 earlier data
  isBot : Renews (·.findBool fieldBot) false earlier data
  supportsPartialHashing : Renews (·.findBool fieldSupportsPartialHashing) false earlier data
  supportsSsl : Renews (·.findBool fieldSupportsSsl) false earlier data
  supportsRanges : Renews (·.findBool fieldSupportsRanges) false earlier data
  clientVersion : Renews publishedVersion "" earlier data

section
variable [MuscleLibrary]

def NodeUpdate.IsName (sessionId : String) (u : NodeUpdate) : Prop :=
  nodeOwner u.nodePath = some sessionId ∧ nodeAt u.nodePath = some .name

instance (sessionId : String) : DecidablePred (NodeUpdate.IsName sessionId) := fun u =>
  inferInstanceAs (Decidable (nodeOwner u.nodePath = some sessionId ∧
    nodeAt u.nodePath = some .name))

namespace ConnectionWorld

/-- What the list shows of a session after some updates, if it shows the session. -/
def nameFieldsAfter (w : ConnectionWorld) (us : List NodeUpdate) (sessionId : String) :
    Option NameFields :=
  ((w.applyUpdates us).users.findUser sessionId).map UserRecord.nameFields

theorem applyUpdates_names (w : ConnectionWorld) {us : List NodeUpdate}
    (hother : sessionId ≠ w.localSessionId) (hnames : ∀ u ∈ us, u.IsName sessionId)
    (known : UserRecord) :
    us.foldl (w.readInto sessionId) (some known) =
      some (us.foldl (fun user u => user.readName u.nodePath u.data) known) := by
  induction us generalizing known with
  | nil => rfl
  | cons u us ih =>
    obtain ⟨howner, hnode⟩ := hnames u List.mem_cons_self
    have hwrite : known.write u = known.readName u.nodePath u.data := by
      rw [UserRecord.write, hnode]
      rfl
    rw [List.foldl_cons, List.foldl_cons, readInto, if_pos ⟨howner, hother⟩, Option.getD_some,
      hwrite]
    exact ih (fun v hm => hnames v (List.mem_cons_of_mem u hm)) _

end ConnectionWorld

end

theorem foldl_readName [MuscleLibrary] (user : UserRecord) (us : List NodeUpdate) :
    let log := us.map NodeUpdate.data
    (us.foldl (fun user u => user.readName u.nodePath u.data) user).nameFields =
      { userName := (latest (·.findString fieldName) log).getD user.userName
        port := (latest (·.findInt32 fieldPort) log).getD user.port
        installId := (latest publishedInstallId log).getD user.installId
        isBot := (latest (·.findBool fieldBot) log).getD user.isBot
        supportsPartialHashing := (latest (·.findBool fieldSupportsPartialHashing) log).getD
          user.supportsPartialHashing
        supportsSsl := (latest (·.findBool fieldSupportsSsl) log).getD user.supportsSsl
        supportsRanges := (latest (·.findBool fieldSupportsRanges) log).getD user.supportsRanges
        clientVersion := (latest publishedVersion log).getD user.clientVersion } := by
  intro log
  have hfield {α : Type} {field : UserRecord → α} {pick : NodeMessage → Option α}
      (h : ∀ (user : UserRecord) (u : NodeUpdate),
        field (user.readName u.nodePath u.data) = (pick u.data).getD (field user)) :
      field (us.foldl (fun user u => user.readName u.nodePath u.data) user) =
        (latest pick log).getD (field user) := by
    rw [latest_map]
    exact foldl_eq_latest h user us
  rw [UserRecord.nameFields]
  congr 1 <;> exact hfield fun _ _ => rfl

namespace ConnectionWorld

structure AwaitsName (w : ConnectionWorld) (sessionId : String) : Prop where
  other : sessionId ≠ w.localSessionId
  fields : (w.recordOf sessionId).nameFields = {}

variable [MuscleLibrary]

theorem findUser_names {w : ConnectionWorld} (hother : sessionId ≠ w.localSessionId)
    {earlier : List NodeUpdate} {last : NodeUpdate}
    (hnames : ∀ u ∈ earlier ++ [last], u.IsName sessionId) :
    (w.applyUpdates (earlier ++ [last])).users.findUser sessionId =
      some ((earlier ++ [last]).foldl (fun user u => user.readName u.nodePath u.data)
        (w.recordOf sessionId)) := by
  rw [applyUpdates_findUser]
  obtain ⟨u, us, hus⟩ := List.exists_cons_of_ne_nil (List.append_ne_nil_of_right_ne_nil earlier
    (List.cons_ne_nil last []))
  rw [hus] at hnames ⊢
  obtain ⟨howner, hnode⟩ := hnames u List.mem_cons_self
  have hwrite : (w.recordOf sessionId).write u =
      (w.recordOf sessionId).readName u.nodePath u.data := by
    rw [UserRecord.write, hnode]
    rfl
  rw [List.foldl_cons, List.foldl_cons, readInto, if_pos ⟨howner, hother⟩, ← recordOf, hwrite]
  exact w.applyUpdates_names hother (fun v hm => hnames v (List.mem_cons_of_mem u hm)) _

/-- The record says what the last name node says exactly if nothing older is left over. -/
theorem nameFieldsAfter_iff {w : ConnectionWorld} (hw : w.AwaitsName sessionId)
    {earlier : List NodeUpdate} {last : NodeUpdate}
    (hnames : ∀ u ∈ earlier ++ [last], u.IsName sessionId) :
    w.nameFieldsAfter (earlier ++ [last]) sessionId = some (publishedNameFields last.data) ↔
      RenewsAll (earlier.map NodeUpdate.data) last.data := by
  have hdefaults := hw.fields
  simp only [UserRecord.nameFields, NameFields.mk.injEq] at hdefaults
  obtain ⟨huserName, hport, hinstallId, hisBot, hpartial, hssl, hranges, hversion⟩ := hdefaults
  rw [nameFieldsAfter, findUser_names hw.other hnames, Option.map_some, foldl_readName,
    Option.some.injEq, publishedNameFields, NameFields.mk.injEq, List.map_append, List.map_cons,
    List.map_nil, huserName, hport, hinstallId, hisBot, hpartial, hssl, hranges, hversion]
  simp only [getD_latest_concat_iff]
  constructor
  · rintro ⟨h₁, h₂, h₃, h₄, h₅, h₆, h₇, h₈⟩
    exact ⟨h₁, h₂, h₃, h₄, h₅, h₆, h₇, h₈⟩
  · rintro ⟨h₁, h₂, h₃, h₄, h₅, h₆, h₇, h₈⟩
    exact ⟨h₁, h₂, h₃, h₄, h₅, h₆, h₇, h₈⟩

/-- After either history the record says what the last name node says, hence the same. -/
def ReflectLast (w w' : ConnectionWorld) (earlier earlier' : List NodeUpdate) (last : NodeUpdate)
    (sessionId : String) : Prop :=
  w.nameFieldsAfter (earlier ++ [last]) sessionId =
      w'.nameFieldsAfter (earlier' ++ [last]) sessionId ∧
    w.nameFieldsAfter (earlier ++ [last]) sessionId = some (publishedNameFields last.data) ∧
    w'.nameFieldsAfter (earlier' ++ [last]) sessionId = some (publishedNameFields last.data)

end ConnectionWorld

def nameUpdate (data : NodeMessage) : NodeUpdate := ⟨"/host/5/beshare/name", data⟩

/-- A peer stops listening and publishes its name without a port. -/
theorem old_port_is_remembered : ¬ ∀ (_ : MuscleLibrary) (w w' : ConnectionWorld)
    (earlier earlier' : List NodeUpdate) (last : NodeUpdate) (sessionId : String),
      w.AwaitsName sessionId → w'.AwaitsName sessionId →
      (∀ u ∈ earlier ++ [last], u.IsName sessionId) →
      (∀ u ∈ earlier' ++ [last], u.IsName sessionId) →
        w.ReflectLast w' earlier earlier' last sessionId := by
  intro h
  have hsame := (h plainLibrary {} {}
    [nameUpdate ((Message.ofWhat ()).addInt32 fieldPort 7000)] []
    (nameUpdate ((Message.ofWhat ()).addString fieldName "ann")) "5" ⟨by decide, rfl⟩
    ⟨by decide, rfl⟩ (by decide) (by decide)).1
  exact absurd hsame (by decide)

/-- Two histories of name nodes that end with the same one leave what that one says exactly if each
field it lacks was last said to be the default before, if it was said at all. -/
theorem record_reflects_name_node [MuscleLibrary] {w w' : ConnectionWorld}
    (hw : w.AwaitsName sessionId) (hw' : w'.AwaitsName sessionId)
    {earlier earlier' : List NodeUpdate} {last : NodeUpdate}
    (hnames : ∀ u ∈ earlier ++ [last], u.IsName sessionId)
    (hnames' : ∀ u ∈ earlier' ++ [last], u.IsName sessionId) :
    w.ReflectLast w' earlier earlier' last sessionId ↔
      RenewsAll (earlier.map NodeUpdate.data) last.data ∧
        RenewsAll (earlier'.map NodeUpdate.data) last.data := by
  rw [ConnectionWorld.ReflectLast, ConnectionWorld.nameFieldsAfter_iff hw hnames,
    ConnectionWorld.nameFieldsAfter_iff hw' hnames']
  constructor
  · exact fun h => h.2
  · rintro ⟨hrenews, hrenews'⟩
    have hlast := (ConnectionWorld.nameFieldsAfter_iff hw hnames).mpr hrenews
    have hlast' := (ConnectionWorld.nameFieldsAfter_iff hw' hnames').mpr hrenews'
    exact ⟨hlast.trans hlast'.symm, hrenews, hrenews'⟩

/-- The port is said again. -/
theorem new_port_is_reflected :
    let _ : MuscleLibrary := plainLibrary
    let start : ConnectionWorld := {}
    let earlier : List NodeUpdate := [nameUpdate ((Message.ofWhat ()).addInt32 fieldPort 7000)]
    let last : NodeUpdate := nameUpdate ((Message.ofWhat ()).addInt32 fieldPort 7001)
    start.ReflectLast start earlier [] last "5" := by
  intro library start earlier last
  have hstart : start.AwaitsName "5" := ⟨by decide, rfl⟩
  have hiff := record_reflects_name_node hstart hstart (by decide :
    ∀ u ∈ earlier ++ [last], u.IsName "5") (by decide : ∀ u ∈ [] ++ [last], u.IsName "5")
  refine hiff.mpr ⟨?_, ?_⟩ <;> constructor <;> first | exact fun _ => rfl | nofun

end HiTuxShare
