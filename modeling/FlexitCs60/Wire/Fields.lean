import FlexitCs60.Wire.Ascii
import Mathlib.Logic.Function.Basic

/-! Lines of `key=value` fields with blanks between them: how they are written, and
how they are taken apart again. -/
namespace Wire

/-- White space, on ASCII text. -/
def isSpace (b : UInt8) : Bool := b = 0x20 ∨ 0x09 ≤ b ∧ b ≤ 0x0D

theorem isSpace_visible {b : UInt8} (visible : 0x20 < b.toNat) : isSpace b = false := by
  simp only [isSpace, decide_eq_false_iff_not, UInt8.le_iff_toNat_le, ← UInt8.toNat_inj,
    UInt8.reduceToNat]
  omega

/-- The maximal runs of other bytes. -/
def words (text : List UInt8) : List (List UInt8) :=
  (text.splitOnP isSpace).filter fun word => word ≠ []

/-- The text before the first `sep` and the text behind it. -/
def cutAt (sep : UInt8) : List UInt8 → Option (List UInt8 × List UInt8)
  | [] => none
  | b :: rest =>
    if b = sep then some ([], rest)
    else (cutAt sep rest).map fun cut => (b :: cut.1, cut.2)

theorem cutAt_append {sep : UInt8} {before : List UInt8} (absent : sep ∉ before)
    (behind : List UInt8) : cutAt sep (before ++ sep :: behind) = some (before, behind) := by
  induction before with
  | nil => simp [cutAt]
  | cons b rest ih =>
    obtain ⟨different, absent⟩ := List.ne_and_not_mem_of_not_mem_cons absent
    rw [List.cons_append, cutAt, if_neg (Ne.symm different), ih absent]
    rfl

/-- A key and its value. -/
abbrev Field := List UInt8 × List UInt8

namespace Field

def text (f : Field) : List UInt8 := f.1 ++ 0x3D :: f.2

/-- Nothing in the field can be taken for a separator. -/
structure Clean (f : Field) : Prop where
  key : ∀ b ∈ f.1, isSpace b = false ∧ b ≠ 0x3D
  value : ∀ b ∈ f.2, isSpace b = false

theorem Clean.solid {f : Field} (clean : f.Clean) : ∀ b ∈ f.text, isSpace b = false := by
  intro b member
  rcases List.mem_append.mp member with key | rest
  · exact (clean.key b key).1
  rcases List.mem_cons.mp rest with rfl | value
  · rfl
  · exact clean.value b value

theorem Clean.cut {f : Field} (clean : f.Clean) : cutAt 0x3D f.text = some f :=
  cutAt_append (fun member => (clean.key _ member).2 rfl) _

theorem text_ne_nil (f : Field) : f.text ≠ [] := by simp [text]

end Field

/-- Each field behind a blank. -/
def trail (fields : List Field) : List UInt8 := fields.flatMap fun f => 0x20 :: f.text

/-- The fields with one blank between two of them. -/
def joined (fields : List Field) : List UInt8 := (trail fields).drop 1

/-- The fields of a line, those without a `=` skipped. -/
def fieldsOf (line : List UInt8) : List Field := (words line).filterMap (cutAt 0x3D)

theorem trail_append (first second : List Field) :
    trail (first ++ second) = trail first ++ trail second :=
  List.flatMap_append

theorem joined_append {first : List Field} (some : first ≠ []) (second : List Field) :
    joined (first ++ second) = joined first ++ trail second := by
  obtain ⟨f, rest, rfl⟩ := List.exists_cons_of_ne_nil some
  simp [joined, trail]

/-- A blank and a `=` for each field, its key and its value. -/
theorem length_trail (fields : List Field) :
    (trail fields).length = 2 * fields.length + (fields.map Prod.fst).flatten.length +
      (fields.map Prod.snd).flatten.length := by
  induction fields with
  | nil => rfl
  | cons f rest ih =>
    change (0x20 :: f.text ++ trail rest).length = _
    rw [List.length_append, ih]
    simp only [List.length_cons, Field.text, List.length_append, List.map_cons, List.flatten_cons]
    omega

theorem length_joined {fields : List Field} (some : fields ≠ []) :
    (joined fields).length + 1 = (trail fields).length := by
  obtain ⟨f, rest, rfl⟩ := List.exists_cons_of_ne_nil some
  simp [joined, trail]

theorem words_last {word : List UInt8} (some : word ≠ []) (solid : ∀ b ∈ word, isSpace b = false) :
    words word = [word] := by
  unfold words
  rw [List.splitOnP_eq_singleton solid]
  simp [some]

theorem words_first {word : List UInt8} (some : word ≠ []) (solid : ∀ b ∈ word, isSpace b = false)
    (rest : List UInt8) : words (word ++ 0x20 :: rest) = word :: words rest := by
  unfold words
  rw [List.splitOnP_append_cons_of_forall_mem solid 0x20 rfl]
  simp [some]

theorem words_joined (fields : List Field) (clean : ∀ f ∈ fields, f.Clean) :
    words (joined fields) = fields.map Field.text := by
  induction fields with
  | nil => rfl
  | cons f rest ih =>
    have solid := (clean f (List.mem_cons_self ..)).solid
    cases rest with
    | nil => simpa [joined, trail] using words_last f.text_ne_nil solid
    | cons g rest =>
      have next := ih fun h member => clean h (List.mem_cons_of_mem _ member)
      have split : joined (f :: g :: rest) = f.text ++ 0x20 :: joined (g :: rest) := by
        simp [joined, trail]
      rw [split, words_first f.text_ne_nil solid, next]
      rfl

/-- A line of clean fields is read as these fields. -/
theorem fieldsOf_joined {fields : List Field} (clean : ∀ f ∈ fields, f.Clean) :
    fieldsOf (joined fields) = fields := by
  rw [fieldsOf, words_joined fields clean, List.filterMap_map]
  calc fields.filterMap (cutAt 0x3D ∘ Field.text)
      = fields.filterMap some := List.filterMap_congr fun f member => (clean f member).cut
    _ = fields := List.filterMap_some

theorem solid_joined {fields : List Field} (clean : ∀ f ∈ fields, f.Clean) :
    ∀ b ∈ joined fields, b = 0x20 ∨ isSpace b = false := by
  intro b member
  obtain ⟨f, here, inside⟩ := List.mem_flatMap.mp (List.mem_of_mem_drop member)
  rcases List.mem_cons.mp inside with blank | text
  · exact .inl blank
  · exact .inr ((clean f here).solid b text)

/-- The fields in a table, a later one in the place of an earlier one. -/
def table (fields : List Field) : List UInt8 → Option (List UInt8) :=
  fields.foldl (fun kv f => Function.update kv f.1 (some f.2)) fun _ => none

/-- With every key once, the table holds every field. -/
theorem table_eq {fields : List Field} (once : (fields.map Prod.fst).Nodup) {f : Field}
    (member : f ∈ fields) : table fields f.1 = some f.2 := by
  induction fields using List.reverseRecOn with
  | nil => exact absurd member List.not_mem_nil
  | append_singleton before last ih =>
    have step : table (before ++ [last]) =
        Function.update (table before) last.1 (some last.2) := by
      rw [table, List.foldl_append]
      rfl
    rw [List.map_append, List.nodup_append] at once
    obtain ⟨distinct, _, apart⟩ := once
    rw [step]
    rcases List.mem_append.mp member with earlier | here
    · have different : f.1 ≠ last.1 :=
        apart f.1 (List.mem_map_of_mem earlier) last.1 (List.mem_cons_self ..)
      rw [Function.update_of_ne different, ih distinct earlier]
    · obtain rfl := List.mem_singleton.mp here
      rw [Function.update_self]

end Wire
