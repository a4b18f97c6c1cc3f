import Mathlib.Data.List.Basic

set_option autoImplicit true

/-- What HTML is written of: a tag, with all that is between its brackets, a character reference,
or a character that is neither. -/
inductive HtmlPiece where
  | tag (content : List Char)
  | reference (name : List Char)
  | plain (c : Char)
  deriving DecidableEq

namespace HtmlPiece

def write : HtmlPiece → List Char
  | .tag content => '<' :: content ++ ['>']
  | .reference name => '&' :: name ++ [';']
  | .plain c => [c]

/-- A piece that can be taken for no other, and that ends where it is closed. -/
def IsWhole : HtmlPiece → Prop
  | .tag content => '<' ∉ content ∧ '>' ∉ content
  | .reference name => ';' ∉ name
  | .plain c => c ≠ '<' ∧ c ≠ '>' ∧ c ≠ '&'

/-- The four characters that mean something, by their names. -/
def ofChar : Char → HtmlPiece
  | '<' => .reference "lt".toList
  | '>' => .reference "gt".toList
  | '&' => .reference "amp".toList
  | '"' => .reference "quot".toList
  | c => .plain c

def tag? : HtmlPiece → Option (List Char)
  | .tag content => some content
  | .reference _ => none
  | .plain _ => none

def isTag (piece : HtmlPiece) : Bool := piece.tag?.isSome

theorem ofChar_isWhole (c : Char) : (ofChar c).IsWhole := by
  unfold ofChar
  split
  · change ';' ∉ "lt".toList
    decide
  · change ';' ∉ "gt".toList
    decide
  · change ';' ∉ "amp".toList
    decide
  · change ';' ∉ "quot".toList
    decide
  · next hlt hgt hamp hquot => exact ⟨hlt, hgt, hamp⟩

theorem tag?_ofChar (c : Char) : (ofChar c).tag? = none := by
  unfold ofChar
  split <;> rfl

theorem cut_inj {stop : Char} {inside inside' : List Char} (h : stop ∉ inside) (h' : stop ∉ inside')
    (he : inside ++ stop :: rest = inside' ++ stop :: rest') : inside = inside' ∧ rest = rest' := by
  induction inside generalizing inside' with
  | nil =>
    cases inside' with
    | nil => exact ⟨rfl, (List.cons.inj he).2⟩
    | cons c inside' => exact absurd (List.cons.inj he).1 (List.ne_of_not_mem_cons h')
  | cons c inside ih =>
    cases inside' with
    | nil => exact absurd (List.cons.inj he).1.symm (List.ne_of_not_mem_cons h)
    | cons c' inside' =>
      obtain ⟨rfl, hrest⟩ := List.cons.inj he
      obtain ⟨rfl, rfl⟩ :=
        ih (List.not_mem_of_not_mem_cons h) (List.not_mem_of_not_mem_cons h') hrest
      exact ⟨rfl, rfl⟩

/-- Where a piece starts decides what it is, and where it closes how much of it there is. -/
theorem write_inj (h : IsWhole piece) (h' : IsWhole piece')
    (he : piece.write ++ rest = piece'.write ++ rest') : piece = piece' ∧ rest = rest' := by
  have hcut {stop : Char} {inside inside' : List Char} (hn : stop ∉ inside) (hn' : stop ∉ inside')
      (hi : inside ++ [stop] ++ rest = inside' ++ [stop] ++ rest') :
      inside = inside' ∧ rest = rest' := by
    rw [List.append_assoc, List.append_assoc] at hi
    exact cut_inj hn hn' hi
  cases piece with
  | tag content =>
    cases piece' with
    | tag content' =>
      obtain ⟨rfl, rfl⟩ := hcut h.2 h'.2 (List.cons.inj he).2
      exact ⟨rfl, rfl⟩
    | reference name' => exact absurd (List.cons.inj he).1 (by decide)
    | plain c' => exact absurd (List.cons.inj he).1.symm h'.1
  | reference name =>
    cases piece' with
    | tag content' => exact absurd (List.cons.inj he).1 (by decide)
    | reference name' =>
      obtain ⟨rfl, rfl⟩ := hcut h h' (List.cons.inj he).2
      exact ⟨rfl, rfl⟩
    | plain c' => exact absurd (List.cons.inj he).1.symm h'.2.2
  | plain c =>
    cases piece' with
    | tag content' => exact absurd (List.cons.inj he).1 h.1
    | reference name' => exact absurd (List.cons.inj he).1 h.2.2
    | plain c' =>
      obtain ⟨rfl, rfl⟩ := List.cons.inj he
      exact ⟨rfl, rfl⟩

theorem write_ne_nil (piece : HtmlPiece) : piece.write ≠ [] := by
  cases piece <;> exact List.cons_ne_nil _ _

theorem flatMap_write_inj {pieces pieces' : List HtmlPiece} (h : ∀ piece ∈ pieces, IsWhole piece)
    (h' : ∀ piece ∈ pieces', IsWhole piece) (he : pieces.flatMap write = pieces'.flatMap write) :
    pieces = pieces' := by
  induction pieces generalizing pieces' with
  | nil =>
    cases pieces' with
    | nil => rfl
    | cons piece' pieces' =>
      exact absurd (List.append_eq_nil_iff.mp he.symm).1 (write_ne_nil piece')
  | cons piece pieces ih =>
    cases pieces' with
    | nil => exact absurd (List.append_eq_nil_iff.mp he).1 (write_ne_nil piece)
    | cons piece' pieces' =>
      rw [List.forall_mem_cons] at h h'
      obtain ⟨rfl, hrest⟩ := write_inj h.1 h'.1 he
      rw [ih h.2 h'.2 hrest]

end HtmlPiece

/-- A text of which nothing is markup. -/
def htmlPieces (text : List Char) : List HtmlPiece := text.map HtmlPiece.ofChar

theorem htmlPieces_append (text text' : List Char) :
    htmlPieces (text ++ text') = htmlPieces text ++ htmlPieces text' := List.map_append

def htmlEscape : Char → List Char
  | '<' => "&lt;".toList
  | '>' => "&gt;".toList
  | '&' => "&amp;".toList
  | '"' => "&quot;".toList
  | c => [c]

def htmlEscaped (text : List Char) : List Char := text.flatMap htmlEscape

theorem write_ofChar (c : Char) : (HtmlPiece.ofChar c).write = htmlEscape c := by
  unfold HtmlPiece.ofChar htmlEscape
  split <;> rfl

theorem write_htmlPieces (text : List Char) :
    (htmlPieces text).flatMap HtmlPiece.write = htmlEscaped text := by
  rw [htmlPieces, List.flatMap_map]
  exact List.flatMap_congr fun c _ => write_ofChar c

theorem htmlEscaped_eq_nil : htmlEscaped text = [] ↔ text = [] := by
  rw [htmlEscaped, List.flatMap_eq_nil_iff]
  constructor
  · exact fun h => List.eq_nil_iff_forall_not_mem.mpr fun c hm =>
      (HtmlPiece.ofChar c).write_ne_nil ((write_ofChar c).trans (h c hm))
  · rintro rfl c hm
    cases hm

theorem htmlEscaped_eq_self (h : ∀ c ∈ text, htmlEscape c = [c]) : htmlEscaped text = text := by
  rw [htmlEscaped, List.flatMap_congr h]
  exact List.flatMap_singleton' text

/-- HTML with these tags, in this order, and with these pieces beside them. -/
def MarkedUp (html : List Char) (tags : List (List Char)) (others : List HtmlPiece) : Prop :=
  ∃ pieces : List HtmlPiece, (∀ piece ∈ pieces, piece.IsWhole) ∧
    pieces.flatMap HtmlPiece.write = html ∧ pieces.filterMap HtmlPiece.tag? = tags ∧
    pieces.filter (fun piece => !piece.isTag) = others

namespace MarkedUp

/-- What is a tag of an HTML text is not left to who reads it. -/
theorem unique (h : MarkedUp html tags others) (h' : MarkedUp html tags' others') :
    tags' = tags ∧ others' = others := by
  obtain ⟨pieces, hwhole, rfl, rfl, rfl⟩ := h
  obtain ⟨pieces', hwhole', he, rfl, rfl⟩ := h'
  rw [HtmlPiece.flatMap_write_inj hwhole' hwhole he]
  exact ⟨rfl, rfl⟩

theorem nil : MarkedUp [] [] [] := ⟨[], List.forall_mem_nil _, rfl, rfl, rfl⟩

theorem append (h : MarkedUp html tags others) (h' : MarkedUp html' tags' others') :
    MarkedUp (html ++ html') (tags ++ tags') (others ++ others') := by
  obtain ⟨pieces, hwhole, rfl, rfl, rfl⟩ := h
  obtain ⟨pieces', hwhole', rfl, rfl, rfl⟩ := h'
  exact ⟨pieces ++ pieces', List.forall_mem_append.mpr ⟨hwhole, hwhole'⟩, List.flatMap_append,
    List.filterMap_append, List.filter_append ..⟩

theorem tag (hopen : '<' ∉ content) (hclose : '>' ∉ content) :
    MarkedUp ('<' :: content ++ ['>']) [content] [] :=
  ⟨[.tag content], List.forall_mem_singleton.mpr ⟨hopen, hclose⟩, List.append_nil _, rfl, rfl⟩

theorem reference (h : ';' ∉ name) : MarkedUp ('&' :: name ++ [';']) [] [.reference name] :=
  ⟨[.reference name], List.forall_mem_singleton.mpr h, List.append_nil _, rfl, rfl⟩

theorem escaped (text : List Char) : MarkedUp (htmlEscaped text) [] (htmlPieces text) := by
  refine ⟨htmlPieces text, ?_, write_htmlPieces text, ?_, ?_⟩
  · rintro _ hm
    obtain ⟨c, -, rfl⟩ := List.mem_map.mp hm
    exact HtmlPiece.ofChar_isWhole c
  · rw [List.filterMap_eq_nil_iff]
    rintro _ hm
    obtain ⟨c, -, rfl⟩ := List.mem_map.mp hm
    exact HtmlPiece.tag?_ofChar c
  · rw [List.filter_eq_self]
    rintro _ hm
    obtain ⟨c, -, rfl⟩ := List.mem_map.mp hm
    rw [HtmlPiece.isTag, HtmlPiece.tag?_ofChar]
    rfl

theorem plain (h : htmlEscaped text = text) : MarkedUp text [] (htmlPieces text) := by
  have hmarked := escaped text
  rwa [h] at hmarked

theorem element (hstart : '<' ∉ start ∧ '>' ∉ start) (hstop : '<' ∉ stop ∧ '>' ∉ stop)
    (h : MarkedUp html tags others) :
    MarkedUp (('<' :: start ++ ['>']) ++ html ++ ('<' :: stop ++ ['>']))
      (start :: tags ++ [stop]) others := by
  have hmarked := ((tag hstart.1 hstart.2).append h).append (tag hstop.1 hstop.2)
  rwa [List.append_nil] at hmarked

end MarkedUp
