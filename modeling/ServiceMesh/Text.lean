import Mathlib.Data.List.DropRight
import Mathlib.Data.List.Infix

/-!
# The methods of `str` that the mesh uses

Searching a UTF-8 string by bytes finds the places that searching its characters finds, so these
work on the lists of characters.
-/

namespace ServiceMesh

/-- `str::contains` of a substring. -/
def containsStr (text value : String) : Bool := decide (value.toList <:+: text.toList)

/-- `str::starts_with`. -/
def startsWith (text start : String) : Bool := start.toList.isPrefixOf text.toList

/-- What starts with `start` is `start` and a rest. -/
theorem startsWith_iff {text start : String} : startsWith text start = true ↔ ∃ rest, text = start ++ rest := by
  rw [startsWith, List.isPrefixOf_iff_prefix]
  constructor
  · rintro ⟨rest, whole⟩
    refine ⟨String.ofList rest, String.toList_inj.mp ?_⟩
    rw [String.toList_append, String.toList_ofList, whole]
  · rintro ⟨rest, rfl⟩
    rw [String.toList_append]
    exact List.prefix_append _ _

/-- The leftmost occurrence of `pattern` replaced. -/
def replaceFirst (pattern replacement text : List Char) : List Char :=
  if pattern.isPrefixOf text then replacement ++ text.drop pattern.length
  else
    match text with
    | [] => []
    | c :: rest => c :: replaceFirst pattern replacement rest

/-- What stands around the leftmost occurrence of a pattern in a text. -/
structure Leftmost (pattern before after text : List Char) : Prop where
  whole : text = before ++ pattern ++ after
  first : ∀ before' after', text = before' ++ pattern ++ after' → before.length ≤ before'.length

/-- A pattern has one leftmost occurrence at most. -/
theorem Leftmost.unique {pattern before after before' after' text : List Char} (h : Leftmost pattern before after text)
    (h' : Leftmost pattern before' after' text) : before = before' ∧ after = after' := by
  have length : before.length = before'.length := Nat.le_antisymm (h.first _ _ h'.whole) (h'.first _ _ h.whole)
  have same : before ++ pattern ++ after = before' ++ pattern ++ after' := h.whole.symm.trans h'.whole
  rw [List.append_assoc, List.append_assoc] at same
  obtain ⟨front, rest⟩ := List.append_inj same length
  exact ⟨front, List.append_cancel_left rest⟩

/-- An occurrence at the front is the leftmost one, wherever else the pattern occurs. -/
theorem leftmost_front (pattern after : List Char) : Leftmost pattern [] after (pattern ++ after) :=
  ⟨rfl, fun _ _ _ => Nat.zero_le _⟩

/-- A character in front of a text in which the pattern does not start. -/
theorem Leftmost.cons {pattern before after rest : List Char} (c : Char) (missed : ¬ pattern <+: c :: rest)
    (h : Leftmost pattern before after rest) : Leftmost pattern (c :: before) after (c :: rest) := by
  refine ⟨by rw [h.whole]; rfl, ?_⟩
  intro before' after' whole
  cases before' with
  | nil => exact absurd ⟨after', whole.symm⟩ missed
  | cons c' before' => exact Nat.succ_le_succ (h.first before' after' (List.cons.inj whole).2)

/-- **The search**: it replaces the leftmost occurrence, or there is none and the text stays as it is. -/
theorem replaceFirst_spec (pattern replacement text : List Char) :
    (∃ before after, Leftmost pattern before after text ∧
      replaceFirst pattern replacement text = before ++ replacement ++ after) ∨
    (¬ pattern <:+: text ∧ replaceFirst pattern replacement text = text) := by
  induction text with
  | nil =>
    by_cases starts : pattern <+: []
    · obtain rfl := List.prefix_nil.mp starts
      exact .inl ⟨[], [], leftmost_front [] [], by simp [replaceFirst]⟩
    · refine .inr ⟨fun occurs => starts ?_, ?_⟩
      · rw [List.infix_nil.mp occurs]
      · unfold replaceFirst
        rw [if_neg (mt List.isPrefixOf_iff_prefix.mp starts)]
  | cons c rest ih =>
    by_cases starts : pattern <+: c :: rest
    · obtain ⟨after, whole⟩ := starts
      refine .inl ⟨[], after, whole ▸ leftmost_front pattern after, ?_⟩
      unfold replaceFirst
      rw [if_pos (List.isPrefixOf_iff_prefix.mpr ⟨after, whole⟩), ← whole, List.drop_left]
      rfl
    · have goesOn : replaceFirst pattern replacement (c :: rest) = c :: replaceFirst pattern replacement rest := by
        rw [replaceFirst, if_neg (mt List.isPrefixOf_iff_prefix.mp starts)]
      rw [goesOn]
      rcases ih with ⟨before, after, leftmost, replaced⟩ | ⟨missing, same⟩
      · refine .inl ⟨c :: before, after, leftmost.cons c starts, ?_⟩
        rw [replaced]
        rfl
      · refine .inr ⟨?_, congrArg (c :: ·) same⟩
        intro occurs
        rcases List.infix_cons_iff.mp occurs with front | later
        · exact starts front
        · exact missing later

/-- Of a text that starts with the pattern, the search replaces just that start. -/
theorem replaceFirst_front (pattern replacement after : List Char) :
    replaceFirst pattern replacement (pattern ++ after) = replacement ++ after := by
  rcases replaceFirst_spec pattern replacement (pattern ++ after) with ⟨before, after', leftmost, replaced⟩ | ⟨missing, -⟩
  · obtain ⟨none, rest⟩ := leftmost.unique (leftmost_front pattern after)
    rw [replaced, none, rest]
    rfl
  · exact absurd ⟨[], after, rfl⟩ missing

/-- `str::replacen(pattern, replacement, 1)`. -/
def replacen (text pattern replacement : String) : String :=
  String.ofList (replaceFirst pattern.toList replacement.toList text.toList)

/-- Of a string that starts with the pattern, the rest stays. -/
theorem replacen_append (pattern replacement rest : String) :
    replacen (pattern ++ rest) pattern replacement = replacement ++ rest := by
  rw [replacen, String.toList_append, replaceFirst_front, ← String.toList_append, String.ofList_toList]

/-- `str::split` at a character. -/
def split (sep : Char) : List Char → List (List Char)
  | [] => [[]]
  | c :: rest =>
    if c = sep then [] :: split sep rest
    else
      match split sep rest with
      | [] => [[c]]
      | part :: parts => (c :: part) :: parts

/-- A part without separators in front of one is the first part. -/
theorem split_append {sep : Char} {part : List Char} (plain : sep ∉ part) (text : List Char) :
    split sep (part ++ sep :: text) = part :: split sep text := by
  induction part with
  | nil => exact if_pos rfl
  | cons c part ih =>
    have first : c ≠ sep := fun same => plain (same ▸ List.mem_cons_self)
    have others : sep ∉ part := fun mem => plain (List.mem_cons_of_mem c mem)
    rw [List.cons_append, split, if_neg first, ih others]

/-- It is the library's `splitOn`. -/
theorem split_eq_splitOn (sep : Char) (text : List Char) : split sep text = text.splitOn sep := by
  induction text with
  | nil => rfl
  | cons c rest ih =>
    rw [split, List.splitOn_cons_eq_if_modifyHead, ih]
    by_cases here : c = sep
    · rw [if_pos here, if_pos (beq_iff_eq.mpr here)]
    · rw [if_neg here, if_neg (mt beq_iff_eq.mp here)]
      obtain ⟨part, parts, some⟩ := List.exists_cons_of_ne_nil (List.splitOn_ne_nil sep rest)
      rw [some]
      rfl

/-- The parts have no separators. -/
theorem not_mem_of_mem_split {sep : Char} {part text : List Char} (mem : part ∈ split sep text) : sep ∉ part := by
  induction text generalizing part with
  | nil =>
    rw [List.mem_singleton.mp mem]
    exact List.not_mem_nil
  | cons c rest ih =>
    obtain ⟨first, parts, some⟩ := List.exists_cons_of_ne_nil (split_eq_splitOn sep rest ▸ List.splitOn_ne_nil sep rest)
    rw [split, some] at mem
    rw [some] at ih
    split at mem
    · rcases List.mem_cons.mp mem with rfl | later
      · exact List.not_mem_nil
      · exact ih later
    · next other =>
      rcases List.mem_cons.mp mem with rfl | later
      · exact List.not_mem_cons_of_ne_of_not_mem (Ne.symm other) (ih List.mem_cons_self)
      · exact ih (List.mem_cons_of_mem first later)

/-- `char::is_whitespace`: the Unicode property `White_Space`. -/
def isWhitespace (c : Char) : Bool :=
  (0x9 ≤ c.toNat && c.toNat ≤ 0xd) || c.toNat == 0x20 || c.toNat == 0x85 || c.toNat == 0xa0 || c.toNat == 0x1680 ||
    (0x2000 ≤ c.toNat && c.toNat ≤ 0x200a) || c.toNat == 0x2028 || c.toNat == 0x2029 || c.toNat == 0x202f ||
    c.toNat == 0x205f || c.toNat == 0x3000

/-- `str::trim`. -/
def trim (text : List Char) : List Char :=
  ((text.dropWhile isWhitespace).reverse.dropWhile isWhitespace).reverse

theorem trim_eq (text : List Char) : trim text = (text.dropWhile isWhitespace).rdropWhile isWhitespace := rfl

theorem subset_of_trim (text : List Char) : trim text ⊆ text := by
  rw [trim_eq]
  exact List.Subset.trans (List.IsPrefix.subset (List.rdropWhile_prefix _ _)) (List.IsSuffix.subset (List.dropWhile_suffix _))

/-- What is trimmed is trimmed for good: the start of a text stays when its end is cut. -/
theorem trim_trim (text : List Char) : trim (trim text) = trim text := by
  have front : (trim text).dropWhile isWhitespace = trim text := by
    rw [List.dropWhile_eq_self_iff]
    intro some blank
    have start := List.rdropWhile_prefix isWhitespace (text.dropWhile isWhitespace)
    have first := start.getElem some
    have open' := List.dropWhile_eq_self_iff.mp (List.dropWhile_idempotent isWhitespace text)
    exact open' (Nat.lt_of_lt_of_le some start.length_le) (first ▸ blank)
  rw [trim_eq (trim text), front, trim_eq, List.rdropWhile_idempotent]

/-- `str::parse` of an unsigned integer below `limit`: decimal digits, perhaps after a plus. -/
def parseUnsigned (limit : Nat) (text : List Char) : Option Nat :=
  let digits := match text with
    | '+' :: rest => rest
    | _ => text
  if digits = [] ∨ ¬ digits.all Char.isDigit then none
  else
    let value := digits.foldl (fun n c => 10 * n + (c.toNat - 48)) 0
    if value < limit then some value else none

/-- **A number is read as it is written**, if it is below the limit. -/
theorem parseUnsigned_repr {limit n : Nat} (fits : n < limit) : parseUnsigned limit (toString n).toList = some n := by
  have written : (toString n).toList = Nat.toDigits 10 n := Nat.toList_repr
  have digit : ∀ c ∈ Nat.toDigits 10 n, c.isDigit = true := fun c mem =>
    Nat.isDigit_of_mem_toDigits (by decide) (by decide) mem
  have value : (Nat.toDigits 10 n).foldl (fun n c => 10 * n + (c.toNat - 48)) 0 = n :=
    Nat.ofDigitChars_eq_foldl.symm.trans Nat.ofDigitChars_ten_toDigits
  rw [written]
  obtain ⟨c, rest, some⟩ := List.exists_cons_of_ne_nil (Nat.toDigits_ne_nil (n := n) (b := 10))
  rw [some] at digit value ⊢
  have unsigned : c ≠ '+' := by
    rintro rfl
    exact absurd (digit '+' List.mem_cons_self) (by decide)
  have all : (c :: rest).all Char.isDigit = true := List.all_eq_true.mpr digit
  simp only [parseUnsigned]
  split
  · next plus => exact absurd (List.cons.inj plus).1 unsigned
  · rw [if_neg (by simp [all]), value, if_pos fits]

/-- What is read is below the limit. -/
theorem parseUnsigned_lt {limit n : Nat} {text : List Char} (read : parseUnsigned limit text = some n) : n < limit := by
  simp only [parseUnsigned, Option.ite_none_left_eq_some, Option.ite_none_right_eq_some, Option.some_inj] at read
  obtain ⟨-, fits, rfl⟩ := read
  exact fits

end ServiceMesh
