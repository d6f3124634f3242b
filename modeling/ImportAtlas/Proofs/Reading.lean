import ImportAtlas.Json.Printer
import ImportAtlas.Json.Reader

/-!
# Proofs/Reading — what is printed reads back

A document is printed with blanks between its parts and read without regard to them, so that both
layouts are read as the same document: `Json.parse_render`.  A text reads back character by character
(`readText_escapeChar`), a number as far as its digits go, and an array or an object item by item;
the length of what is printed bounds the nesting.  Printing says nothing about documents that cannot
be held, and nothing that is printed here is one (`Json.IsPlain`).
-/

namespace ImportAtlas

/-! ## Digits -/

namespace Decimal

/-- Only the digits of zero start with a zero. -/
theorem eq_nil_of_digits {n : Nat} {ds : List Char} (h : digits n = '0' :: ds) : ds = [] := by
  induction n using Nat.strongRecOn generalizing ds with
  | _ n ih =>
    rw [digits] at h
    split at h
    · exact (List.cons.inj h).2.symm
    · rename_i hn
      obtain ⟨d, front, hfront⟩ := List.exists_cons_of_ne_nil (digits_ne_nil (n / 10))
      rw [hfront, List.cons_append] at h
      obtain ⟨rfl, _⟩ := List.cons.inj h
      obtain rfl := ih (n / 10) (by omega) hfront
      have hzero : n / 10 = 0 := by
        rw [← value_digits (n / 10), hfront]
        rfl
      omega

theorem le_foldl_value (ds : List Char) (n : Nat) :
    n ≤ ds.foldl (fun n d => 10 * n + digitValue d) n := by
  induction ds generalizing n with
  | nil => exact Nat.le_refl n
  | cons d ds ih => exact Nat.le_trans (by omega) (ih (10 * n + digitValue d))

end Decimal

namespace Json

open Decimal

/-! ## Numbers -/

/-- All digits are taken as long as the number fits. -/
theorem absorb_eq {ds : List Char} {n : Nat}
    (h : ds.foldl (fun n d => 10 * n + digitValue d) n < Nat.pow 2 64) :
    absorb n ds = (ds.foldl (fun n d => 10 * n + digitValue d) n, 0) := by
  induction ds generalizing n with
  | nil => rfl
  | cons d ds ih =>
    have hfits : 10 * n + digitValue d < Nat.pow 2 64 :=
      Nat.lt_of_le_of_lt (le_foldl_value ds _) h
    rw [absorb, if_pos hfits, List.foldl_cons]
    exact ih h

/-- Rounding at most doubles a number. -/
theorem roundBinary_le (n : Nat) : roundBinary n ≤ 2 * n := by
  by_cases hn : n = 0
  · subst hn
    decide
  · have hunit : Nat.pow 2 (n.log2 - 52) ≤ n :=
      Nat.le_trans (Nat.pow_le_pow_right (by omega) (Nat.sub_le ..)) (Nat.log2_self_le hn)
    have hquotient : n / Nat.pow 2 (n.log2 - 52) * Nat.pow 2 (n.log2 - 52) ≤ n :=
      Nat.div_mul_le_self ..
    unfold roundBinary
    simp only
    split
    · rw [Nat.add_mul, Nat.one_mul]
      omega
    · omega

theorem roundBinary_roundBinary_lt {n k : Nat} (h : n < Nat.pow 2 64) (hk : 66 ≤ k) :
    roundBinary (roundBinary n) < Nat.pow 2 k := by
  have hinner := roundBinary_le n
  have houter := roundBinary_le (roundBinary n)
  have hbits : Nat.pow 2 66 = 4 * Nat.pow 2 64 := rfl
  have hsmall : roundBinary (roundBinary n) < Nat.pow 2 66 := by omega
  exact Nat.lt_of_lt_of_le hsmall (Nat.pow_le_pow_right Nat.two_pos hk)

/-- A number of 64 bits is held. -/
theorem isHeldNumber_digits {n : Nat} (h : n < Nat.pow 2 64) :
    isHeldNumber (digits n) [] 0 = true := by
  have habsorb : absorb 0 (digits n) = (n, 0) := by
    have hvalue : (digits n).foldl (fun n d => 10 * n + digitValue d) 0 = n := value_digits n
    rw [absorb_eq (hvalue.symm ▸ h), hvalue]
  have hone : roundBinary (Nat.pow 10 0) = 1 := by decide
  have hpower : (0 : Int) + (0 : Nat) - ((([] : List Char).length - 0 : Nat) : Int) = 0 := rfl
  have hround : ∀ k, 66 ≤ k → roundBinary (roundBinary n) < Nat.pow 2 k := fun _ hk =>
    roundBinary_roundBinary_lt h hk
  rw [isHeldNumber, habsorb]
  simp only [absorb, hpower, Int.toNat_zero, hone, Nat.mul_one, Bool.or_eq_true,
    Bool.and_eq_true, decide_eq_true_eq]
  exact Or.inr ⟨by decide, hround 1024 (by decide)⟩

/-- **What ends a number**: nothing that stands behind it is a part of it. -/
def EndsNumber (rest : List Char) : Prop :=
  ∀ c ∈ rest.head?, isDigit c = false ∧ c ≠ '.' ∧ c ≠ 'e' ∧ c ≠ 'E'

theorem endsNumber_nil : EndsNumber [] := by simp [EndsNumber]

theorem takeWhile_digits {rest : List Char} (h : EndsNumber rest) (n : Nat) :
    (digits n ++ rest).takeWhile isDigit = digits n ∧
      (digits n ++ rest).dropWhile isDigit = rest := by
  have hdigits : ∀ c ∈ digits n, isDigit c = true := fun c hc => isDigit_of_mem_digits hc
  rw [List.takeWhile_append_of_pos hdigits, List.dropWhile_append_of_pos hdigits]
  cases rest with
  | nil => exact ⟨List.append_nil _, rfl⟩
  | cons c cs =>
    have hc : isDigit c = false := (h c rfl).1
    simp [hc]

theorem readWhole_digits {rest : List Char} (h : EndsNumber rest) (n : Nat) :
    readWhole (digits n ++ rest) = some (digits n, rest) := by
  obtain ⟨htake, hdrop⟩ := takeWhile_digits h n
  have hread : readDigits (digits n ++ rest) = some (digits n, rest) := by
    rw [readDigits, htake, hdrop]
    split
    · exact absurd ‹_› (digits_ne_nil n)
    · rfl
  rw [readWhole, hread]
  split
  · rename_i heq
    obtain ⟨hdigits, _⟩ := Prod.mk.inj (Option.some.inj heq)
    exact absurd (eq_nil_of_digits hdigits) (List.cons_ne_nil _ _)
  · rfl

/-- **The digits of a number read back**, if the number has 64 bits. -/
theorem readNumber_digits {n : Nat} {rest : List Char} (h : n < Nat.pow 2 64)
    (hrest : EndsNumber rest) : readNumber (digits n ++ rest) = some (natural n, rest) := by
  obtain ⟨d, ds, hds⟩ := List.exists_cons_of_ne_nil (digits_ne_nil n)
  have hfraction : readFraction rest = some ([], rest) := by
    unfold readFraction
    split
    · exact absurd rfl (hrest '.' rfl).2.1
    · rfl
  have hexponent : readExponent rest = some ([], rest) := by
    unfold readExponent
    split
    · rename_i c cs
      obtain ⟨_, _, he, hE⟩ := hrest c rfl
      rw [if_neg (by simp [he, hE])]
    · rfl
  have hsign : d ≠ '-' := by
    rintro rfl
    have hdash : isDigit '-' = true := isDigit_of_mem_digits (hds ▸ List.mem_cons_self)
    nomatch hdash
  have hwhole := readWhole_digits hrest n
  rw [hds, List.cons_append] at hwhole ⊢
  unfold readNumber
  split
  rename_i heq
  split at heq
  · exact absurd (List.cons.inj ‹d :: (ds ++ rest) = _›).1 hsign
  · obtain ⟨rfl, rfl⟩ := Prod.mk.inj heq
    simp only [hwhole, hfraction, hexponent, Option.bind_eq_bind, Option.bind_some]
    rw [← hds]
    simp [powerOf, isHeldNumber_digits h, value_digits]

/-! ## Texts -/

theorem hexUnit?_hexDigit : ∀ n < 32,
    hexUnit? '0' '0' (hexDigit (n / 16)) (hexDigit (n % 16)) = some n := by decide

theorem readText_cons {c : Char} (hquote : c ≠ '"') (hbackslash : c ≠ '\\')
    (hcontrol : ¬ c.toNat < 0x20) (rest : List Char) :
    readText (c :: rest) = consChar c (readText rest) := by
  rw [readText.eq_def]
  split
  · nomatch ‹c :: rest = []›
  · exact absurd (List.cons.inj ‹_›).1 hquote
  · exact absurd (List.cons.inj ‹_›).1 hbackslash
  · exact absurd (List.cons.inj ‹_›).1 hbackslash
  · rename_i heq
    obtain ⟨rfl, rfl⟩ := List.cons.inj heq
    rw [if_neg hcontrol]

/-- **A character of a text reads back.** -/
theorem readText_escapeChar (c : Char) (rest : List Char) :
    readText (escapeChar c ++ rest) = consChar c (readText rest) := by
  unfold escapeChar
  -- Seven characters have an escape of their own.
  iterate 7 (split; · subst_vars; rfl)
  split
  · rename_i hcontrol
    have hunit := hexUnit?_hexDigit c.toNat (by omega)
    simp only [List.cons_append, List.nil_append, readText, hunit]
    rw [if_neg (by omega), Char.ofNat_toNat]
  · rename_i hquote hbackslash _ _ _ _ _ hcontrol
    exact readText_cons hquote hbackslash hcontrol rest

theorem readText_flatMap (text rest : List Char) :
    readText (text.flatMap escapeChar ++ '"' :: rest) = some (some text, rest) := by
  induction text with
  | nil => rfl
  | cons c text ih =>
    rw [List.flatMap_cons, List.append_assoc, readText_escapeChar, ih]
    rfl

theorem readText_printText (text : String) (rest : List Char) :
    ∃ inside, printText text ++ rest = '"' :: inside ∧
      readText inside = some (some text.toList, rest) := by
  refine ⟨text.toList.flatMap escapeChar ++ '"' :: rest, ?_, readText_flatMap ..⟩
  rw [printText, List.cons_append, List.append_assoc, List.singleton_append]

/-! ## Blanks -/

/-- **A layout adds nothing but blanks** to a document. -/
structure Style.AddsBlanks (style : Style) : Prop where
  gap : ∀ level, ∀ c ∈ style.gap level, isBlank c = true
  colon : ∃ blanks, style.colon = ':' :: blanks ∧ ∀ c ∈ blanks, isBlank c = true

theorem Style.addsBlanks_compact : Style.compact.AddsBlanks where
  gap level c hc := nomatch hc
  colon := ⟨[], rfl, by simp⟩

theorem Style.addsBlanks_pretty : Style.pretty.AddsBlanks where
  gap level c hc := by
    rcases List.mem_cons.mp hc with rfl | hc
    · decide
    · rw [List.eq_of_mem_replicate hc]
      decide
  colon := ⟨[' '], rfl, by simp [isBlank]⟩

section Blanks

variable {blanks rest : List Char} {c : Char} (hblanks : ∀ c ∈ blanks, isBlank c = true)

theorem skipBlanks_cons (h : isBlank c = false) (rest : List Char) :
    skipBlanks (c :: rest) = c :: rest :=
  List.dropWhile_cons_of_neg (by simp [h])

include hblanks

theorem skipBlanks_append (rest : List Char) : skipBlanks (blanks ++ rest) = skipBlanks rest :=
  List.dropWhile_append_of_pos hblanks

theorem readValue_append (fuel : Nat) (rest : List Char) :
    readValue fuel (blanks ++ rest) = readValue fuel rest := by
  cases fuel with
  | zero => rfl
  | succ fuel => rw [readValue, readValue, skipBlanks_append hblanks]

theorem readItems_append (fuel : Nat) (rest : List Char) :
    readItems fuel (blanks ++ rest) = readItems fuel rest := by
  cases fuel with
  | zero => rfl
  | succ fuel => rw [readItems, readItems, readValue_append hblanks]

theorem readFields_append (fuel : Nat) (rest : List Char) :
    readFields fuel (blanks ++ rest) = readFields fuel rest := by
  cases fuel with
  | zero => rfl
  | succ fuel => rw [readFields, readFields, skipBlanks_append hblanks]

/-- A blank ends a number. -/
theorem endsNumber_append (h : EndsNumber rest) : EndsNumber (blanks ++ rest) := by
  cases blanks with
  | nil => exact h
  | cons c blanks =>
    have hc : isBlank c = true := hblanks c List.mem_cons_self
    simp only [isBlank, Bool.or_eq_true, beq_iff_eq] at hc
    rintro _ ⟨⟩
    rcases hc with ((rfl | rfl) | rfl) | rfl <;> decide

end Blanks

theorem isBlank_of_isDigit {d : Char} (h : isDigit d = true) : isBlank d = false := by
  cases hblank : isBlank d with
  | false => rfl
  | true =>
    have hends : EndsNumber ([d] ++ []) := endsNumber_append (by simp [hblank]) endsNumber_nil
    nomatch h.symm.trans (hends d rfl).1

/-! ## Documents -/

/-- **A document that is held as it is written**: its numbers have no sign, no fraction and at most 64
bits, and there is nothing else in it that might not be held. -/
inductive IsPlain : Json → Prop
  | null : IsPlain null
  | bool (value : Bool) : IsPlain (bool value)
  | natural {value : Nat} (h : value < Nat.pow 2 64) : IsPlain (natural value)
  | string (text : String) : IsPlain (string text)
  | array {items : List Json} (h : ∀ item ∈ items, IsPlain item) : IsPlain (array items)
  | object {fields : List (String × Json)} (h : ∀ f ∈ fields, IsPlain f.2) :
    IsPlain (object fields)

section Documents

variable {style : Style} {level fuel : Nat} {rest blanks : List Char} {document item value : Json}
  {items : List Json} {fields : List (String × Json)} {key : String}

/-- What is printed of a document starts with no blank and with no closing bracket. -/
theorem exists_head_print (h : document.IsPlain) (style : Style) (level : Nat) :
    ∃ c cs, print style level document = c :: cs ∧ isBlank c = false ∧ c ≠ ']' := by
  cases h with
  | null => exact ⟨'n', _, rfl, by decide, by decide⟩
  | bool value => cases value <;> exact ⟨_, _, rfl, by decide, by decide⟩
  | @natural value _ =>
    obtain ⟨d, ds, hds⟩ := List.exists_cons_of_ne_nil (digits_ne_nil value)
    have hd : isDigit d = true := isDigit_of_mem_digits (hds ▸ List.mem_cons_self)
    refine ⟨d, ds, hds, isBlank_of_isDigit hd, ?_⟩
    rintro rfl
    nomatch hd
  | string text => exact ⟨_, _, rfl, by decide, by decide⟩
  | @array items _ => cases items <;> exact ⟨_, _, by rw [print], by decide, by decide⟩
  | @object fields _ => cases fields <;> exact ⟨_, _, by rw [print], by decide, by decide⟩

/-- **A document that reads back** from what is printed of it, whatever stands behind, in as many
steps as twice its length. -/
def ReadsBack (style : Style) (document : Json) : Prop :=
  ∀ level fuel rest, EndsNumber rest → 2 * (print style level document).length ≤ fuel →
    readValue fuel (print style level document ++ rest) = some (document, rest)

/-- What is read of an object behind a field, without the blanks there. -/
def readBehind (fuel : Nat) (field : String × Json) :
    List Char → Option (Option (List (String × Json)) × List Char)
  | ',' :: rest => (readFields fuel rest).map fun (fields, rest) => (fields.map (field :: ·), rest)
  | '\x7d' :: rest => some (some [field], rest)
  | _ => none

/-- A plain document is not read before the first step. -/
theorem readsBack_of_step (h : document.IsPlain)
    (hread : ∀ level fuel rest, EndsNumber rest →
      2 * (print style level document).length ≤ fuel + 1 →
      readValue (fuel + 1) (print style level document ++ rest) = some (document, rest)) :
    ReadsBack style document := by
  intro level fuel rest hrest hfuel
  obtain ⟨c, cs, hhead, _⟩ := exists_head_print h style level
  cases fuel with
  | zero =>
    rw [hhead, List.length_cons] at hfuel
    omega
  | succ fuel => exact hread level fuel rest hrest hfuel

/-- What starts with a digit is read as a number. -/
theorem readValue_of_isDigit {d : Char} (h : isDigit d = true) (fuel : Nat) (ds : List Char) :
    readValue (fuel + 1) (d :: ds) = readNumber (d :: ds) := by
  rw [readValue, skipBlanks_cons (isBlank_of_isDigit h)]
  split <;> first | rfl | (obtain ⟨rfl, _⟩ := List.cons.inj ‹_›; nomatch h)

theorem readsBack_natural {n : Nat} (h : n < Nat.pow 2 64) : ReadsBack style (natural n) := by
  refine readsBack_of_step (.natural h) fun _ _ rest hrest _ => ?_
  obtain ⟨d, ds, hds⟩ := List.exists_cons_of_ne_nil (digits_ne_nil n)
  have hd : isDigit d = true := isDigit_of_mem_digits (hds ▸ List.mem_cons_self)
  have hread := readNumber_digits h hrest
  rw [print, hds, List.cons_append, readValue_of_isDigit hd]
  rwa [hds] at hread

theorem readsBack_string (text : String) : ReadsBack style (string text) := by
  refine readsBack_of_step (.string text) fun _ _ rest _ _ => ?_
  obtain ⟨inside, htext, hinside⟩ := readText_printText text rest
  have hquote : isBlank '"' = false := by decide
  rw [print, htext, readValue]
  simp only [skipBlanks_cons hquote, hinside, Option.map_some, String.ofList_toList]

variable (hstyle : style.AddsBlanks)
include hstyle

theorem endsNumber_printItems : EndsNumber (printItems style level items ++ rest) := by
  cases items with
  | nil =>
    rw [printItems, List.append_assoc]
    exact endsNumber_append (hstyle.gap level) (by rintro _ ⟨⟩; decide)
  | cons item items =>
    rw [printItems]
    rintro _ ⟨⟩
    decide

theorem endsNumber_printFields : EndsNumber (printFields style level fields ++ rest) := by
  cases fields with
  | nil =>
    rw [printFields, List.append_assoc]
    exact endsNumber_append (hstyle.gap level) (by rintro _ ⟨⟩; decide)
  | cons field fields =>
    rw [printFields]
    rintro _ ⟨⟩
    decide

/-- **Items read back** if each of them does. -/
theorem readItems_print (hitems : ∀ i ∈ item :: items, ReadsBack style i)
    (hfuel : 2 * ((print style (level + 1) item).length + (printItems style level items).length)
      ≤ fuel) :
    readItems fuel (print style (level + 1) item ++ (printItems style level items ++ rest))
      = some (item :: items, rest) := by
  have hend : isBlank ']' = false := by decide
  have hcomma : isBlank ',' = false := by decide
  induction items generalizing item fuel with
  | nil =>
    obtain ⟨hitem, _⟩ := List.forall_mem_cons.mp hitems
    rw [printItems, List.length_append, List.length_singleton] at hfuel
    obtain ⟨fuel, rfl⟩ : ∃ n, fuel = n + 1 := ⟨fuel - 1, by omega⟩
    rw [readItems, hitem (level + 1) fuel _ (endsNumber_printItems hstyle) (by omega)]
    simp only [printItems, List.append_assoc, skipBlanks_append (hstyle.gap level),
      List.singleton_append, skipBlanks_cons hend]
  | cons next items ih =>
    obtain ⟨hitem, hnext⟩ := List.forall_mem_cons.mp hitems
    rw [printItems, List.length_cons, List.length_append, List.length_append] at hfuel
    obtain ⟨fuel, rfl⟩ : ∃ n, fuel = n + 1 := ⟨fuel - 1, by omega⟩
    have hleft : 2 * ((print style (level + 1) next).length
        + (printItems style level items).length) ≤ fuel := by omega
    rw [readItems, hitem (level + 1) fuel _ (endsNumber_printItems hstyle) (by omega)]
    simp only [printItems, List.cons_append, List.append_assoc, skipBlanks_cons hcomma,
      readItems_append (hstyle.gap (level + 1)), ih hnext hleft, Option.map_some]

/-- One field is read, and then what stands behind it. -/
theorem readFields_field (hvalue : ReadsBack style value) (hrest : EndsNumber rest)
    (hfuel : 2 * (print style (level + 1) value).length ≤ fuel) :
    readFields (fuel + 1)
        (printText key ++ (style.colon ++ (print style (level + 1) value ++ rest)))
      = readBehind fuel (key, value) (skipBlanks rest) := by
  obtain ⟨blanks, hcolon, hblanks⟩ := hstyle.colon
  obtain ⟨inside, htext, hinside⟩ :=
    readText_printText key (style.colon ++ (print style (level + 1) value ++ rest))
  have hquote : isBlank '"' = false := by decide
  have hmark : isBlank ':' = false := by decide
  rw [htext, readFields]
  simp only [skipBlanks_cons hquote, hinside, hcolon, List.cons_append, skipBlanks_cons hmark,
    readValue_append hblanks, hvalue (level + 1) fuel rest hrest hfuel, Option.map_some,
    Option.bind_some, String.ofList_toList]
  rfl

/-- **Fields read back** if the value of each does. -/
theorem readFields_print (hfields : ∀ f ∈ (key, value) :: fields, ReadsBack style f.2)
    (hfuel : 2 * ((print style (level + 1) value).length + (printFields style level fields).length)
      ≤ fuel) :
    readFields fuel (printText key ++ (style.colon ++ (print style (level + 1) value ++
        (printFields style level fields ++ rest))))
      = some (some ((key, value) :: fields), rest) := by
  have hend : isBlank '\x7d' = false := by decide
  have hcomma : isBlank ',' = false := by decide
  induction fields generalizing key value fuel with
  | nil =>
    have hvalue : ReadsBack style value := hfields _ List.mem_cons_self
    rw [printFields, List.length_append, List.length_singleton] at hfuel
    obtain ⟨fuel, rfl⟩ : ∃ n, fuel = n + 1 := ⟨fuel - 1, by omega⟩
    rw [readFields_field hstyle hvalue (endsNumber_printFields hstyle) (by omega)]
    simp only [printFields, List.append_assoc, skipBlanks_append (hstyle.gap level),
      List.singleton_append, skipBlanks_cons hend, readBehind]
  | cons next fields ih =>
    have hvalue : ReadsBack style value := hfields _ List.mem_cons_self
    have hnext := fun f hf => hfields f (List.mem_cons_of_mem _ hf)
    rw [printFields, List.length_cons, List.length_append, List.length_append] at hfuel
    obtain ⟨fuel, rfl⟩ : ∃ n, fuel = n + 1 := ⟨fuel - 1, by omega⟩
    have hleft : 2 * ((print style (level + 1) next.2).length
        + (printFields style level fields).length) ≤ fuel := by omega
    rw [readFields_field hstyle hvalue (endsNumber_printFields hstyle) (by omega)]
    simp only [printFields, List.cons_append, List.append_assoc, skipBlanks_cons hcomma, readBehind,
      readFields_append (hstyle.gap (level + 1)), ih hnext hleft, Option.map_some]

/-- **An array reads back** if its items do: no item starts with what closes the array. -/
theorem readsBack_array (h : ∀ i ∈ items, i.IsPlain) (hitems : ∀ i ∈ items, ReadsBack style i) :
    ReadsBack style (array items) := by
  refine readsBack_of_step (.array h) fun level fuel rest hrest hfuel => ?_
  have hopen : isBlank '[' = false := by decide
  cases items with
  | nil => rfl
  | cons item items =>
    obtain ⟨c, cs, hitem, hc, hend⟩ :=
      exists_head_print (h item List.mem_cons_self) style (level + 1)
    simp only [print, List.length_cons, List.length_append] at hfuel
    have hread : readItems fuel (print style (level + 1) item ++
        (printItems style level items ++ rest)) = some (item :: items, rest) :=
      readItems_print hstyle hitems (by omega)
    rw [print, readValue]
    simp only [List.cons_append, List.append_assoc, skipBlanks_cons hopen,
      skipBlanks_append (hstyle.gap (level + 1))]
    rw [hitem] at hread ⊢
    rw [List.cons_append] at hread ⊢
    rw [skipBlanks_cons hc]
    split
    · exact absurd (List.cons.inj ‹_›).1 hend
    · rw [hread, Option.map_some]

/-- **An object reads back** if the values of its fields do. -/
theorem readsBack_object (h : ∀ f ∈ fields, f.2.IsPlain)
    (hfields : ∀ f ∈ fields, ReadsBack style f.2) : ReadsBack style (object fields) := by
  refine readsBack_of_step (.object h) fun level fuel rest hrest hfuel => ?_
  have hopen : isBlank '\x7b' = false := by decide
  have hquote : isBlank '"' = false := by decide
  cases fields with
  | nil => rfl
  | cons field fields =>
    obtain ⟨key, value⟩ := field
    simp only [print, List.length_cons, List.length_append] at hfuel
    have hread : readFields fuel (printText key ++ (style.colon ++
        (print style (level + 1) value ++ (printFields style level fields ++ rest))))
          = some (some ((key, value) :: fields), rest) :=
      readFields_print hstyle hfields (by omega)
    rw [print, readValue]
    simp only [List.cons_append, List.append_assoc, skipBlanks_cons hopen,
      skipBlanks_append (hstyle.gap (level + 1))]
    rw [printText, List.cons_append] at hread ⊢
    rw [skipBlanks_cons hquote]
    split
    · rename_i heq
      nomatch (List.cons.inj heq).1
    · rw [hread, Option.map_some]

/-- **A plain document reads back.** -/
theorem readsBack_of_isPlain (h : document.IsPlain) : ReadsBack style document := by
  induction h with
  | null => exact readsBack_of_step .null fun _ _ _ _ _ => rfl
  | bool value => exact readsBack_of_step (.bool value) fun _ _ _ _ _ => by cases value <;> rfl
  | natural h => exact readsBack_natural h
  | string text => exact readsBack_string text
  | array h ih => exact readsBack_array hstyle h ih
  | object h ih => exact readsBack_object hstyle h ih

/-- **A plain document is what its text is read as**, in every layout. -/
theorem parse_render (h : document.IsPlain) : parse (document.render style) = some document := by
  have hread := readsBack_of_isPlain hstyle h 0 (2 * (print style 0 document).length + 2) []
    endsNumber_nil (by omega)
  rw [List.append_nil] at hread
  rw [parse, render, String.toList_ofList, hread]
  rfl

end Documents

end Json

end ImportAtlas
