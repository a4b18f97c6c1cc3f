import Mathlib.Tactic.Common

set_option autoImplicit true

/-- Where a path leads, as far as its text alone decides it: a location is the list of names
from the root down, and links are not followed. -/
abbrev Location := List String

namespace LexicalPath

/-- A name that stands for itself as one step of a path. -/
structure IsPlain (name : String) : Prop where
  ne_empty : name ≠ ""
  ne_dot : name ≠ "."
  ne_dotdot : name ≠ ".."
  no_separator : '/' ∉ name.toList

def components (path : String) : List String := (path.toList.splitOn '/').map String.ofList

def enter (location : Location) (component : String) : Location :=
  if component = "" ∨ component = "." then location
  else if component = ".." then location.dropLast
  else location ++ [component]

/-- Follows a path from `start`: the root for an absolute path, else the working directory. -/
def walk (start : Location) (path : String) : Location := (components path).foldl enter start

/-- The names below a directory, each behind a separator. -/
def below (names : List String) : String := String.join (names.map ("/" ++ ·))

theorem below_cons (name : String) (names : List String) :
    below (name :: names) = "/" ++ name ++ below names := by
  apply String.toList_inj.mp
  simp [below]

theorem below_append (names names' : List String) :
    below (names ++ names') = below names ++ below names' := by
  apply String.toList_inj.mp
  simp [below]

theorem below_singleton (name : String) : below [name] = "/" ++ name := by
  apply String.toList_inj.mp
  simp [below]

theorem components_slash (path rest : String) :
    components (path ++ "/" ++ rest) = components path ++ components rest := by
  have h : (path ++ "/" ++ rest).toList = path.toList ++ '/' :: rest.toList := by simp
  rw [components, h, List.splitOn_append_cons_self, List.map_append]
  rfl

theorem components_plain (h : IsPlain name) : components name = [name] := by
  rw [components, List.splitOn_eq_singleton h.no_separator, List.map_singleton,
    String.ofList_toList]

theorem walk_slash (start : Location) (path rest : String) :
    walk start (path ++ "/" ++ rest) = walk (walk start path) rest := by
  rw [walk, components_slash, List.foldl_append]
  rfl

theorem walk_plain (start : Location) (h : IsPlain name) : walk start name = start ++ [name] := by
  rw [walk, components_plain h, List.foldl_cons, List.foldl_nil, enter,
    if_neg (not_or.mpr ⟨h.ne_empty, h.ne_dot⟩), if_neg h.ne_dotdot]

theorem walk_below (start : Location) (directory : String) (h : ∀ name ∈ names, IsPlain name) :
    walk start (directory ++ below names) = walk start directory ++ names := by
  induction names generalizing directory with
  | nil => rw [List.append_nil]; exact congrArg (walk start) (by simp [below])
  | cons name names ih =>
    have hname := h name List.mem_cons_self
    have hnames : ∀ n ∈ names, IsPlain n := fun n hn => h n (List.mem_cons_of_mem _ hn)
    rw [below_cons, ← String.append_assoc, ← String.append_assoc, ih _ hnames, walk_slash,
      walk_plain _ hname, List.append_assoc, List.singleton_append]

end LexicalPath
