import Mathlib.Tactic.Common

set_option autoImplicit true

/-- What `fopen(path, "rb")` and `fread` see: paths name files, and a file keeps its contents
when its last name goes away. -/
structure Disk where
  names : String → Option Nat
  contents : Nat → List UInt8

/-- A `FILE*` opened for reading. -/
structure ReadStream where
  file : Nat
  position : Nat
  deriving DecidableEq

namespace Disk

def fopen (d : Disk) (path : String) : Option ReadStream :=
  (d.names path).map fun file => ⟨file, 0⟩

def fread (d : Disk) (count : Nat) (stream : ReadStream) : List UInt8 × ReadStream :=
  let buffer := ((d.contents stream.file).drop stream.position).take count
  (buffer, { stream with position := stream.position + buffer.length })

/-- The bytes a stream has not delivered yet. -/
def unread (d : Disk) (stream : ReadStream) : List UInt8 :=
  (d.contents stream.file).drop stream.position

/-- The contents `fopen` would give access to. -/
def file? (d : Disk) (path : String) : Option (List UInt8) := (d.names path).map d.contents

theorem fopen_unread {d : Disk} (h : d.fopen path = some stream) :
    d.file? path = some (d.unread stream) := by
  simp only [fopen, Option.map_eq_some_iff] at h
  obtain ⟨file, hn, rfl⟩ := h
  simp [file?, hn, unread]

theorem fopen_eq_none_iff {d : Disk} : d.fopen path = none ↔ d.file? path = none := by
  simp [fopen, file?]

@[simp] theorem fread_fst (d : Disk) (count : Nat) (stream : ReadStream) :
    (d.fread count stream).1 = (d.unread stream).take count := rfl

theorem fread_snd_unread (d : Disk) (count : Nat) (stream : ReadStream) :
    d.unread (d.fread count stream).2 = (d.unread stream).drop count := by
  simp only [fread, unread, List.drop_drop, List.length_take, List.length_drop]
  by_cases h : count ≤ (d.contents stream.file).length - stream.position
  · rw [Nat.min_eq_left h]
  · rw [List.drop_eq_nil_of_le (by omega), List.drop_eq_nil_of_le (by omega)]

/-- A disk holding the listed files and no others. -/
def ofFiles (files : List (String × List UInt8)) : Disk where
  names path := files.findIdx? fun f => f.1 = path
  contents file := (files[file]?.map Prod.snd).getD []

end Disk
