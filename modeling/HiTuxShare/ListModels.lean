import HiTuxShare.IndexedRows
import HiTuxShare.UserRegistry
import Std.Data.String.ToNat

namespace HiTuxShare
set_option autoImplicit true

/-- How Qt reads the bytes of a string, with what is documented about it: valid UTF-8 is read
without loss, and only a line break is read as one. -/
class QtLibrary where
  fromUtf8 : String → String
  isUtf8 : String → Bool
  fromUtf8_injective : ∀ {text text'}, isUtf8 text = true → isUtf8 text' = true →
    fromUtf8 text = fromUtf8 text' → text = text'
  fromUtf8_newline : ∀ {text}, isUtf8 text = true → '\n' ∈ (fromUtf8 text).toList →
    '\n' ∈ text.toList

/-- Everything is valid, and read as it is. -/
abbrev plainQt : QtLibrary where
  fromUtf8 text := text
  isUtf8 _ := true
  fromUtf8_injective _ _ h := h
  fromUtf8_newline _ h := h

export QtLibrary (isUtf8)

def toQString [QtLibrary] (text : String) : String := QtLibrary.fromUtf8 text

/-- A user together with the server they are on. A connection is known by its number. -/
structure UserListEntry where
  user : UserRecord
  connection : Nat
  serverName : String
  deriving DecidableEq

abbrev UserListModel := IndexedRows String UserListEntry

/-- One result together with where it came from. -/
structure FileResultEntry where
  result : FileResult
  connection : Nat
  serverName : String
  sharerName : String
  deriving DecidableEq

abbrev FileResultModel := IndexedRows String FileResultEntry

/-- The start of every key. -/
def connectionKey (connection : Nat) (rest : String) : String := toString connection ++ "\n" ++ rest

variable [QtLibrary]

namespace UserListModel

def makeKey (connection : Nat) (sessionId : String) : String := connectionKey connection sessionId

def entryKey (entry : UserListEntry) : String :=
  makeKey entry.connection (toQString entry.user.sessionId)

def updateUser (m : UserListModel) (connection : Nat) (serverName : String) (user : UserRecord) :
    UserListModel := m.put entryKey ⟨user, connection, serverName⟩

def removeUser (m : UserListModel) (connection : Nat) (sessionId : String) : UserListModel :=
  m.erase entryKey (makeKey connection (toQString sessionId))

def removeUsersForConnection (m : UserListModel) (connection : Nat) : UserListModel :=
  m.keep entryKey fun entry => entry.connection ≠ connection

end UserListModel

namespace FileResultModel

def makeKey (connection : Nat) (sessionId fileName : String) : String :=
  connectionKey connection (toQString sessionId ++ "\n" ++ toQString fileName)

def entryKey (entry : FileResultEntry) : String :=
  makeKey entry.connection entry.result.sessionId entry.result.fileName

/-- The first loop of `AddResults`: rows that are there already are overwritten. -/
def refreshResults (m : FileResultModel) (entries : List FileResultEntry) : FileResultModel :=
  entries.foldl (fun m entry =>
    match m.index.get? (entryKey entry) with
    | some row => { m with rows := m.rows.set row entry }
    | none => m) m

/-- What it leaves for the second one. -/
def additions (m : FileResultModel) (entries : List FileResultEntry) : List FileResultEntry :=
  entries.filter fun entry => (m.index.get? (entryKey entry)).isNone

def addResults (m : FileResultModel) (entries : List FileResultEntry) : FileResultModel :=
  (additions m entries).foldl (IndexedRows.append entryKey) (refreshResults m entries)

def removeResult (m : FileResultModel) (connection : Nat) (sessionId fileName : String) :
    FileResultModel := m.erase entryKey (makeKey connection sessionId fileName)

def removeResultsForSession (m : FileResultModel) (connection : Nat) (sessionId : String) :
    FileResultModel :=
  m.keep entryKey fun entry =>
    entry.connection ≠ connection ∨ toQString entry.result.sessionId ≠ toQString sessionId

def removeResultsForConnection (m : FileResultModel) (connection : Nat) : FileResultModel :=
  m.keep entryKey fun entry => entry.connection ≠ connection

def updateSharerName (m : FileResultModel) (connection : Nat) (sessionId displayName : String) :
    FileResultModel :=
  { m with
    rows := m.rows.map fun entry =>
      if entry.connection ≠ connection ∨
          toQString entry.result.sessionId ≠ toQString sessionId ∨
          entry.sharerName = displayName then entry
      else { entry with sharerName := displayName } }

end FileResultModel

omit [QtLibrary] in
theorem append_cons_inj {x : α} {l l' m m' : List α} (h : x ∉ l) (h' : x ∉ l')
    (heq : l ++ x :: m = l' ++ x :: m') : l = l' ∧ m = m' := by
  induction l generalizing l' with
  | nil =>
    cases l' with
    | nil => exact ⟨rfl, (List.cons.inj heq).2⟩
    | cons y l' =>
      obtain ⟨rfl, -⟩ := List.cons.inj heq
      exact absurd List.mem_cons_self h'
  | cons y l ih =>
    rw [List.mem_cons, not_or] at h
    cases l' with
    | nil => exact absurd (List.cons.inj heq).1.symm h.1
    | cons z l' =>
      rw [List.mem_cons, not_or] at h'
      obtain ⟨rfl, htail⟩ := List.cons.inj heq
      obtain ⟨rfl, hm⟩ := ih h.2 h'.2 htail
      exact ⟨rfl, hm⟩

omit [QtLibrary] in
theorem append_newline_inj {first first' rest rest' : String} (h : '\n' ∉ first.toList)
    (h' : '\n' ∉ first'.toList) (heq : first ++ "\n" ++ rest = first' ++ "\n" ++ rest') :
    first = first' ∧ rest = rest' := by
  have hlist := congrArg String.toList heq
  simp only [String.toList_append, List.append_assoc] at hlist
  obtain ⟨hfirst, hrest⟩ := append_cons_inj h h' hlist
  exact ⟨String.toList_inj.mp hfirst, String.toList_inj.mp hrest⟩

omit [QtLibrary] in
theorem connectionKey_inj : connectionKey connection rest = connectionKey connection' rest' ↔
    connection = connection' ∧ rest = rest' := by
  have hdigits (number : Nat) : '\n' ∉ (toString number).toList := by
    intro hm
    rw [Nat.toString_eq_ofList_toDigits, String.toList_ofList] at hm
    have hdigit := Nat.isDigit_of_mem_toDigits (by decide) (by decide) hm
    cases hdigit
  constructor
  · intro h
    obtain ⟨hnumber, hrest⟩ := append_newline_inj (hdigits _) (hdigits _) h
    exact ⟨Nat.repr_injective hnumber, hrest⟩
  · rintro ⟨rfl, rfl⟩
    rfl

theorem toQString_inj (h : isUtf8 text = true) (h' : isUtf8 text' = true) :
    toQString text = toQString text' ↔ text = text' :=
  ⟨QtLibrary.fromUtf8_injective h h', congrArg toQString⟩

/-- A session ID that is valid UTF-8 on one line. -/
def IsPlainId (sessionId : String) : Prop :=
  isUtf8 sessionId = true ∧ '\n' ∉ sessionId.toList

theorem IsPlainId.newline (h : IsPlainId sessionId) : '\n' ∉ (toQString sessionId).toList :=
  fun hm => h.2 (QtLibrary.fromUtf8_newline h.1 hm)

/-- What identifies a result. -/
structure ResultName where
  connection : Nat
  sessionId : String
  fileName : String
  deriving DecidableEq

namespace ResultName

structure IsPlain (name : ResultName) : Prop where
  sessionId : IsPlainId name.sessionId
  fileName : isUtf8 name.fileName = true

def key (name : ResultName) : String :=
  FileResultModel.makeKey name.connection name.sessionId name.fileName

theorem key_inj {name name' : ResultName} (h : name.IsPlain) (h' : name'.IsPlain) :
    name.key = name'.key ↔ name = name' := by
  obtain ⟨connection, sessionId, fileName⟩ := name
  obtain ⟨connection', sessionId', fileName'⟩ := name'
  constructor
  · intro hk
    obtain ⟨rfl, hrest⟩ := connectionKey_inj.mp hk
    obtain ⟨hsession, hfile⟩ := append_newline_inj h.sessionId.newline h'.sessionId.newline hrest
    obtain rfl := (toQString_inj h.sessionId.1 h'.sessionId.1).mp hsession
    obtain rfl := (toQString_inj h.fileName h'.fileName).mp hfile
    rfl
  · exact congrArg key

end ResultName

end HiTuxShare
