import StateMachine.Json.Reader
import StateMachine.Json.Writer
import StateMachine.Proofs.Json.Members
import StateMachine.Proofs.Numeric.ReadBack
import StateMachine.Proofs.Text.Run

/-!
Written JSON text is read back. Strings come back whatever is in them (`stringBody?_escaped`),
integers as long as nothing continues them (`number?_integerText`), and from these every value that
is `Legible` (`value?_prettyAt`, `parse?_pretty`).

Doubles are left out of `Legible`: the reader is quick rather than exact and may give a neighbour of
a double with many digits.
-/

set_option autoImplicit false

namespace StateMachine.Json

open Numeric
open Text (Stops stops_nil stops_cons takeWhile_run dropWhile_run dropWhile_of_stops)

/-! ### Strings -/

theorem hexValue?_hexDigit (n : Nat) : hexValue? (hexDigit n) = some (n % 16) := by
  have hall : ∀ k : Fin 16, hexValue? (hexDigit k) = some k.val := by decide
  have hdigit : hexDigit n = hexDigit (n % 16) := by rw [hexDigit, hexDigit, Nat.mod_mod]
  rw [hdigit, hall ⟨n % 16, Nat.mod_lt n (by decide)⟩]

/-- The escape of a control character has the character's code as its value. -/
theorem unit?_hexDigits {n : Nat} (h : n < 256) :
    unit? '0' '0' (hexDigit (n / 16)) (hexDigit n) = some n := by
  have hzero : hexValue? '0' = some 0 := by decide
  simp only [unit?, hzero, hexValue?_hexDigit, bind, Option.bind, pure]
  congr 1
  omega

/-- One escaped character is read back as that character. -/
theorem stringBody?_escaped_append (c : Char) (rest : List Char) :
    stringBody? (escaped c ++ rest) =
      (stringBody? rest).map fun (body, rest) ↦ (c :: body, rest) := by
  unfold escaped
  split_ifs with hquote hback hb hf hn hr ht hcontrol
  · subst hquote; rfl
  · subst hback; rfl
  · subst hb; rfl
  · subst hf; rfl
  · subst hn; rfl
  · subst hr; rfl
  · subst ht; rfl
  · have hunit := @unit?_hexDigits c.toNat (by omega)
    have hhigh : isHighSurrogate c.toNat = false := by simp [isHighSurrogate]; omega
    have hlow : isLowSurrogate c.toNat = false := by simp [isLowSurrogate]; omega
    simp only [List.cons_append, List.nil_append]
    rw [stringBody?]
    simp only [hunit, hhigh, hlow, Bool.false_eq_true, if_false, Char.ofNat_toNat]
  · rw [List.singleton_append, stringBody?]
    · rw [if_neg (by simp [hback, hcontrol])]
    all_goals simp_all

/-- A string is read back up to its closing quote. -/
theorem stringBody?_escaped (body rest : List Char) :
    stringBody? (body.flatMap escaped ++ '"' :: rest) = some (body, rest) := by
  induction body with
  | nil => rfl
  | cons c body ih =>
    rw [List.flatMap_cons, List.append_assoc, stringBody?_escaped_append, ih, Option.map_some]

/-! ### Numbers -/

/-- May the character be a part of a number that has begun? -/
def continuesNumber (c : Char) : Bool :=
  c.isDigit || c = '.' || c = 'e' || c = 'E'

theorem continuesNumber_of_isBlank {c : Char} (h : isBlank c) : continuesNumber c = false := by
  simp only [isBlank, Bool.or_eq_true, decide_eq_true_eq] at h
  obtain ((rfl | rfl) | rfl) | rfl := h <;> decide

/-- A positive number starts with no zero. -/
theorem head?_naturalText_ne {n : Nat} (h : 0 < n) : (naturalText n).head? ≠ some '0' := by
  induction n using Nat.strongRecOn with
  | ind n ih =>
    rcases Nat.lt_or_ge n 10 with hlt | hge
    · have hall : ∀ k : Fin 10, 0 < k.val → [Nat.digitChar k].head? ≠ some '0' := by decide
      rw [naturalText, Nat.toDigits_of_lt_base hlt]
      exact hall ⟨n, hlt⟩ h
    · have hhead := ih (n / 10) (by omega) (by omega)
      rw [naturalText, Nat.toDigits_of_base_le (by decide) hge,
        List.head?_append_of_ne_nil _ Nat.toDigits_ne_nil]
      exact hhead

theorem wholePart?_naturalText {rest : List Char} (hrest : Stops continuesNumber rest) (n : Nat) :
    wholePart? (naturalText n ++ rest) = some (naturalText n, rest) := by
  have hstop : Stops Char.isDigit rest := hrest.mono fun c hc ↦ by simp [continuesNumber, hc]
  have hdigits : digits (naturalText n ++ rest) = (naturalText n, rest) := by
    rw [digits, takeWhile_run isDigit_of_mem_naturalText hstop,
      dropWhile_run isDigit_of_mem_naturalText hstop]
  rw [wholePart?, hdigits]
  rcases Nat.eq_zero_or_pos n with rfl | hpos
  · rfl
  · have hhead := head?_naturalText_ne hpos
    split
    · next h => exact absurd (congrArg Prod.fst h) (naturalText_ne_nil n)
    · next h => rw [(Prod.mk.inj h).1] at hhead; exact absurd rfl hhead
    · next h => rw [(Prod.mk.inj h).1] at hhead; exact absurd rfl hhead
    · rfl

theorem fractionPart?_of_stops {rest : List Char} (hrest : Stops continuesNumber rest) :
    fractionPart? rest = some (none, rest) := by
  unfold fractionPart?
  split
  · exact absurd (stops_cons.mp hrest) (by decide)
  · rfl

theorem exponentPart?_of_stops {rest : List Char} (hrest : Stops continuesNumber rest) :
    exponentPart? rest = some (none, rest) := by
  unfold exponentPart?
  split
  · next c rest =>
    have hc := stops_cons.mp hrest
    simp only [continuesNumber, Bool.or_eq_false_iff] at hc
    rw [if_neg (by simp [hc])]
  · rfl

/-- The number of a row of digits with a sign before it. -/
theorem value?_integer (n : Int) (inRange : -2 ^ (63 : Nat) ≤ n ∧ n < 2 ^ (64 : Nat)) :
    NumberText.value? ⟨decide (n < 0), naturalText n.natAbs, none, none⟩ =
      some (.integer n inRange) := by
  simp only [NumberText.value?, naturalValue_naturalText]
  rw [if_neg (by decide)]
  split_ifs with hneg h h
  all_goals simp only [decide_eq_true_eq] at hneg
  · simp only [Option.some.injEq, JsonNumber.integer.injEq]
    omega
  · omega
  · simp only [Option.some.injEq, JsonNumber.integer.injEq]
    omega
  · omega

theorem exists_naturalText_eq_cons (n : Nat) :
    ∃ c digits, naturalText n = c :: digits ∧ c.isDigit := by
  obtain ⟨c, digits, hcons⟩ := List.exists_cons_of_ne_nil (naturalText_ne_nil n)
  exact ⟨c, digits, hcons, isDigit_of_mem_naturalText c (by rw [hcons]; exact List.mem_cons_self)⟩

theorem exists_integerText_eq_cons (n : Int) :
    ∃ c text, integerText n = c :: text ∧ (c.isDigit ∨ c = '-') := by
  obtain ⟨c, digits, hcons, hc⟩ := exists_naturalText_eq_cons n.natAbs
  rw [integerText]
  split
  · exact ⟨'-', _, rfl, .inr rfl⟩
  · exact ⟨c, digits, hcons, .inl hc⟩

/-- An integer is read back up to the first character that cannot continue it. -/
theorem number?_integerText {rest : List Char} (hrest : Stops continuesNumber rest) (n : Int)
    (inRange : -2 ^ (63 : Nat) ≤ n ∧ n < 2 ^ (64 : Nat)) :
    number? (integerText n ++ rest) = some (.integer n inRange, rest) := by
  unfold number?
  split
  next negative text hsign =>
    have hparts : negative = decide (n < 0) ∧ text = naturalText n.natAbs ++ rest := by
      by_cases hneg : n < 0
      · rw [integerText, if_pos hneg] at hsign
        rw [decide_eq_true hneg]
        exact ⟨(congrArg Prod.fst hsign).symm, (congrArg Prod.snd hsign).symm⟩
      · obtain ⟨c, digits, hcons, hc⟩ := exists_naturalText_eq_cons n.natAbs
        have hminus : c ≠ '-' := by rintro rfl; exact absurd hc (by decide)
        rw [integerText, if_neg hneg, hcons] at hsign
        rw [decide_eq_false hneg, hcons]
        split at hsign
        · next h => exact absurd (List.cons.inj h).1 hminus
        · exact ⟨(congrArg Prod.fst hsign).symm, (congrArg Prod.snd hsign).symm⟩
    obtain ⟨rfl, rfl⟩ := hparts
    simp only [wholePart?_naturalText hrest, fractionPart?_of_stops hrest,
      exponentPart?_of_stops hrest, value?_integer n inRange, Option.bind_eq_bind,
      Option.bind_some, Option.pure_def]

/-! ### Steps of the reader -/

theorem consumed?_some {α : Type} {text rest : List Char} (a : α)
    (h : rest.length < text.length) :
    consumed? text (some (a, rest)) = some (a, ⟨rest, h⟩) :=
  dif_pos h

section Steps

variable {n : Nat} {text body rest : List Char}

theorem word?_append (word : String) (value : Json) (rest : List Char) :
    word? word value (word.toList ++ rest) = some (value, rest) := by
  rw [word?, if_pos (List.isPrefixOf_iff_prefix.mpr (List.prefix_append _ _)), List.drop_left]

theorem value?_null (h : text.dropWhile isBlank = 'n' :: body) :
    value? n text = consumed? text (word? "null" .null ('n' :: body)) := by
  rw [value?]
  split <;> simp_all

theorem value?_true (h : text.dropWhile isBlank = 't' :: body) :
    value? n text = consumed? text (word? "true" (.bool true) ('t' :: body)) := by
  rw [value?]
  split <;> simp_all

theorem value?_false (h : text.dropWhile isBlank = 'f' :: body) :
    value? n text = consumed? text (word? "false" (.bool false) ('f' :: body)) := by
  rw [value?]
  split <;> simp_all

theorem value?_string (h : text.dropWhile isBlank = '"' :: body) :
    value? n text = consumed? text
      ((stringBody? body).map fun (s, rest) ↦ (.string (String.ofList s), rest)) := by
  rw [value?]
  split <;> simp_all

theorem value?_number {c : Char} (hc : c.isDigit ∨ c = '-')
    (h : text.dropWhile isBlank = c :: body) :
    value? n text =
      consumed? text ((number? (c :: body)).map fun (n, rest) ↦ (.number n, rest)) := by
  have hother : ∀ other ∈ ['[', '\x7b', '"', 'n', 't', 'f'], other ≠ c := by
    rintro other hmem rfl
    simp only [List.mem_cons, List.not_mem_nil, or_false] at hmem
    obtain rfl | rfl | rfl | rfl | rfl | rfl := hmem <;> exact absurd hc (by decide)
  rw [value?]
  split <;> simp_all

theorem value?_emptyArray (h : text.dropWhile isBlank = '[' :: body)
    (hbody : body.dropWhile isBlank = ']' :: rest) :
    value? (n + 1) text = consumed? text (some (.array [], rest)) := by
  rw [value?]
  split <;> simp_all

theorem value?_emptyObject (h : text.dropWhile isBlank = '\x7b' :: body)
    (hbody : body.dropWhile isBlank = '\x7d' :: rest) :
    value? (n + 1) text = consumed? text (some (.ofMembers [], rest)) := by
  rw [value?]
  split <;> simp_all

theorem value?_array {items : List Json} (h : text.dropWhile isBlank = '[' :: body)
    (hbody : ∀ rest, body.dropWhile isBlank ≠ ']' :: rest)
    (hitems : ∃ hlt, items? n body = some (items, ⟨rest, hlt⟩)) :
    ∃ hlt, value? (n + 1) text = some (.array items, ⟨rest, hlt⟩) := by
  obtain ⟨hlt, hitems⟩ := hitems
  refine ⟨Nat.lt_trans hlt (Text.lt_of_dropWhile_eq_cons h), ?_⟩
  rw [value?]
  split
  case h_1 found hfound =>
    obtain rfl : found = body := (List.cons.inj (hfound.symm.trans h)).2
    simp_all
  all_goals grind

theorem value?_object {members : List (String × Json)}
    (h : text.dropWhile isBlank = '\x7b' :: body)
    (hbody : ∀ rest, body.dropWhile isBlank ≠ '\x7d' :: rest)
    (hmembers : ∃ hlt, members? n body = some (members, ⟨rest, hlt⟩)) :
    ∃ hlt, value? (n + 1) text = some (.ofMembers members, ⟨rest, hlt⟩) := by
  obtain ⟨hlt, hmembers⟩ := hmembers
  refine ⟨Nat.lt_trans hlt (Text.lt_of_dropWhile_eq_cons h), ?_⟩
  rw [value?]
  split
  case h_2 found hfound =>
    obtain rfl : found = body := (List.cons.inj (hfound.symm.trans h)).2
    simp_all
  all_goals grind

theorem items?_last {item : Json} {after : List Char}
    (hvalue : ∃ hlt, value? n text = some (item, ⟨rest, hlt⟩))
    (hrest : rest.dropWhile isBlank = ']' :: after) :
    ∃ hlt, items? n text = some ([item], ⟨after, hlt⟩) := by
  obtain ⟨hlt, hvalue⟩ := hvalue
  refine ⟨Nat.lt_trans (Text.lt_of_dropWhile_eq_cons hrest) hlt, ?_⟩
  rw [items?, hvalue]
  grind

theorem items?_cons {item : Json} {items : List Json} {more last : List Char}
    (hvalue : ∃ hlt, value? n text = some (item, ⟨rest, hlt⟩))
    (hrest : rest.dropWhile isBlank = ',' :: more)
    (hitems : ∃ hlt, items? n more = some (items, ⟨last, hlt⟩)) :
    ∃ hlt, items? n text = some (item :: items, ⟨last, hlt⟩) := by
  obtain ⟨hlt, hvalue⟩ := hvalue
  obtain ⟨hmore, hitems⟩ := hitems
  have hcomma := Text.lt_of_dropWhile_eq_cons hrest
  refine ⟨by omega, ?_⟩
  rw [items?, hvalue]
  grind

theorem key?_quoted {key : String} {tail : List Char}
    (h : text.dropWhile isBlank = quoted key ++ ':' :: tail) :
    ∃ hlt, key? text = some (key, ⟨tail, hlt⟩) := by
  have hlt : tail.length < text.length := by
    have hle := Text.length_dropWhile_le isBlank text
    rw [h] at hle
    simp only [quoted, List.cons_append, List.append_assoc, List.length_cons,
      List.length_append] at hle
    omega
  refine ⟨hlt, ?_⟩
  simp only [key?, h, quoted, List.cons_append, List.append_assoc, List.nil_append,
    stringBody?_escaped, dropWhile_of_stops (stops_cons.mpr (by decide : isBlank ':' = false)),
    String.ofList_toList]
  exact consumed?_some key hlt

theorem members?_last {key : String} {value : Json} {tail after : List Char}
    (hkey : ∃ hlt, key? text = some (key, ⟨tail, hlt⟩))
    (hvalue : ∃ hlt, value? n tail = some (value, ⟨rest, hlt⟩))
    (hrest : rest.dropWhile isBlank = '\x7d' :: after) :
    ∃ hlt, members? n text = some ([(key, value)], ⟨after, hlt⟩) := by
  obtain ⟨htail, hkey⟩ := hkey
  obtain ⟨hlt, hvalue⟩ := hvalue
  have hbrace := Text.lt_of_dropWhile_eq_cons hrest
  refine ⟨by omega, ?_⟩
  rw [members?, hkey]
  grind

theorem members?_cons {key : String} {value : Json} {members : List (String × Json)}
    {tail more last : List Char} (hkey : ∃ hlt, key? text = some (key, ⟨tail, hlt⟩))
    (hvalue : ∃ hlt, value? n tail = some (value, ⟨rest, hlt⟩))
    (hrest : rest.dropWhile isBlank = ',' :: more)
    (hmembers : ∃ hlt, members? n more = some (members, ⟨last, hlt⟩)) :
    ∃ hlt, members? n text = some ((key, value) :: members, ⟨last, hlt⟩) := by
  obtain ⟨htail, hkey⟩ := hkey
  obtain ⟨hlt, hvalue⟩ := hvalue
  obtain ⟨hmore, hmembers⟩ := hmembers
  have hcomma := Text.lt_of_dropWhile_eq_cons hrest
  refine ⟨by omega, ?_⟩
  rw [members?, hkey]
  grind

end Steps

/-! ### Values -/

/-- The value is read back from its text: it has no doubles, its members are in order and it nests
at most so deep. -/
inductive Legible : Nat → Json → Prop where
  | null {n : Nat} : Legible n .null
  | bool {n : Nat} (b : Bool) : Legible n (.bool b)
  | integer {n : Nat} (i : Int) (inRange : -2 ^ (63 : Nat) ≤ i ∧ i < 2 ^ (64 : Nat)) :
    Legible n (.number (.integer i inRange))
  | string {n : Nat} (s : String) : Legible n (.string s)
  | array {n : Nat} {items : List Json} (hitems : ∀ item ∈ items, Legible n item) :
    Legible (n + 1) (.array items)
  | object {n : Nat} {members : List (String × Json)} (horder : InOrder members)
    (hmembers : ∀ member ∈ members, Legible n member.2) : Legible (n + 1) (.object members)

theorem Legible.ofMembers {n : Nat} {members : List (String × Json)}
    (h : ∀ member ∈ members, Legible n member.2) : Legible (n + 1) (.ofMembers members) :=
  .object (inOrder_foldl_insertMember members List.Pairwise.nil) fun member hmember ↦
    (mem_foldl_insertMember hmember).elim (h member) fun hnone ↦ absurd hnone List.not_mem_nil

theorem Legible.ofNat {n : Nat} (i : Nat) : Legible n (.ofNat i) := by
  unfold Json.ofNat
  split
  · exact .integer i _
  · exact .null

/-- The reader takes exactly the shown text, whatever follows it that continues no number. -/
def Reads (n : Nat) (value : Json) (shown : List Char) : Prop :=
  ∀ text rest, Stops continuesNumber rest → text.dropWhile isBlank = shown ++ rest →
    ∃ hlt, value? n text = some (value, ⟨rest, hlt⟩)

/-- The text of a value begins neither with a blank nor with the end of an array. -/
theorem exists_prettyAt_eq_cons {n : Nat} {value : Json} (h : Legible n value) (depth : Nat) :
    ∃ c text, value.prettyAt depth = c :: text ∧ isBlank c = false ∧ c ≠ ']' := by
  cases h with
  | null => exact ⟨'n', _, rfl, by decide, by decide⟩
  | bool b => cases b <;> exact ⟨_, _, rfl, by decide, by decide⟩
  | integer i inRange =>
    obtain ⟨c, shown, hcons, hc⟩ := exists_integerText_eq_cons i
    refine ⟨c, shown, hcons, Bool.eq_false_iff.mpr fun hblank ↦ ?_, ?_⟩
    · have hcontinues := continuesNumber_of_isBlank hblank
      obtain hc | rfl := hc
      · simp [continuesNumber, hc] at hcontinues
      · exact absurd hblank (by decide)
    · rintro rfl
      exact absurd hc (by decide)
  | string s => exact ⟨'"', _, rfl, by decide, by decide⟩
  | @array _ items _ => cases items <;> exact ⟨'[', _, rfl, by decide, by decide⟩
  | @object _ members _ _ => cases members <;> exact ⟨'\x7b', _, rfl, by decide, by decide⟩

theorem dropWhile_prettyAt {n : Nat} {value : Json} (h : Legible n value) (depth : Nat)
    (rest : List Char) :
    (value.prettyAt depth ++ rest).dropWhile isBlank = value.prettyAt depth ++ rest := by
  obtain ⟨c, text, hcons, hblank, -⟩ := exists_prettyAt_eq_cons h depth
  rw [hcons]
  exact dropWhile_of_stops (stops_cons.mpr hblank)

theorem dropWhile_newLine (depth : Nat) (rest : List Char) :
    (newLine depth ++ rest).dropWhile isBlank = rest.dropWhile isBlank :=
  List.dropWhile_append_of_pos (by simp [newLine, isBlank])

theorem stops_newLine (depth : Nat) (rest : List Char) :
    Stops continuesNumber (newLine depth ++ rest) :=
  stops_cons.mpr (by decide)

theorem items?_prettyItems {n depth : Nat} {item : Json} {items : List Json}
    (hlegible : ∀ value ∈ item :: items, Legible n value)
    (hreads : ∀ value ∈ item :: items, Reads n value (value.prettyAt (depth + 1)))
    {text rest : List Char}
    (htext : text.dropWhile isBlank =
      item.prettyAt (depth + 1) ++ (prettyItems depth items ++ rest)) :
    ∃ hlt, items? n text = some (item :: items, ⟨rest, hlt⟩) := by
  induction items generalizing item text with
  | nil =>
    rw [prettyItems, List.append_assoc] at htext
    exact items?_last (hreads item List.mem_cons_self text _ (stops_newLine depth _) htext)
      (dropWhile_newLine depth _)
  | cons next items ih =>
    rw [prettyItems, List.cons_append, List.append_assoc, List.append_assoc] at htext
    have hnext := hlegible next (by simp)
    refine items?_cons
      (hreads item List.mem_cons_self text _ (stops_cons.mpr (by decide)) htext)
      (dropWhile_of_stops (stops_cons.mpr (by decide)))
      (ih (fun value h ↦ hlegible value (List.mem_cons_of_mem _ h))
        (fun value h ↦ hreads value (List.mem_cons_of_mem _ h)) ?_)
    rw [dropWhile_newLine, dropWhile_prettyAt hnext]

/-- A member's value stands after a blank. -/
theorem Reads.after_blank {n depth : Nat} {value : Json} (hlegible : Legible n value)
    (hreads : Reads n value (value.prettyAt depth)) {rest : List Char}
    (hrest : Stops continuesNumber rest) :
    ∃ hlt, value? n (' ' :: (value.prettyAt depth ++ rest)) = some (value, ⟨rest, hlt⟩) :=
  hreads _ rest hrest (dropWhile_prettyAt hlegible depth rest)

theorem members?_prettyMembers {n depth : Nat} {member : String × Json}
    {members : List (String × Json)}
    (hlegible : ∀ other ∈ member :: members, Legible n other.2)
    (hreads : ∀ other ∈ member :: members, Reads n other.2 (other.2.prettyAt (depth + 1)))
    {text rest : List Char}
    (htext : text.dropWhile isBlank = quoted member.1 ++ ':' :: ' ' ::
      (member.2.prettyAt (depth + 1) ++ (prettyMembers depth members ++ rest))) :
    ∃ hlt, members? n text = some (member :: members, ⟨rest, hlt⟩) := by
  induction members generalizing member text with
  | nil =>
    rw [prettyMembers, List.append_assoc] at htext
    exact members?_last (key?_quoted htext)
      ((hreads member List.mem_cons_self).after_blank (hlegible member List.mem_cons_self)
        (stops_newLine depth _))
      (dropWhile_newLine depth _)
  | cons next members ih =>
    rw [prettyMembers, List.cons_append, List.append_assoc] at htext
    refine members?_cons (key?_quoted htext)
      ((hreads member List.mem_cons_self).after_blank (hlegible member List.mem_cons_self)
        (stops_cons.mpr (by decide)))
      (dropWhile_of_stops (stops_cons.mpr (by decide)))
      (ih (fun other h ↦ hlegible other (List.mem_cons_of_mem _ h))
        (fun other h ↦ hreads other (List.mem_cons_of_mem _ h)) ?_)
    simp only [List.append_assoc, List.cons_append, dropWhile_newLine]
    rfl

/-- The reader takes a value of one token if the token's own reader does. -/
theorem Reads.of_consumed {n : Nat} {value : Json} {c : Char} {shown : List Char}
    (h : ∀ text rest, Stops continuesNumber rest → text.dropWhile isBlank = c :: (shown ++ rest) →
      value? n text = consumed? text (some (value, rest))) :
    Reads n value (c :: shown) := by
  intro text rest hrest htext
  have hlt : rest.length < text.length := by
    have hle : (shown ++ rest).length < text.length := Text.lt_of_dropWhile_eq_cons htext
    rw [List.length_append] at hle
    omega
  exact ⟨hlt, (h text rest hrest htext).trans (consumed?_some value hlt)⟩

/-- A legible value is read back from its text, whatever follows it that continues no number. -/
theorem value?_prettyAt {n : Nat} {value : Json} (h : Legible n value) (depth : Nat) :
    Reads n value (value.prettyAt depth) := by
  induction h generalizing depth with
  | null =>
    exact .of_consumed fun text rest _ htext ↦ by
      rw [value?_null htext]
      exact congrArg _ (word?_append "null" .null rest)
  | bool b =>
    cases b with
    | false =>
      exact .of_consumed fun text rest _ htext ↦ by
        rw [value?_false htext]
        exact congrArg _ (word?_append "false" (.bool false) rest)
    | true =>
      exact .of_consumed fun text rest _ htext ↦ by
        rw [value?_true htext]
        exact congrArg _ (word?_append "true" (.bool true) rest)
  | integer i inRange =>
    obtain ⟨c, shown, hcons, hc⟩ := exists_integerText_eq_cons i
    rw [prettyAt, numberText, hcons]
    refine .of_consumed fun text rest hrest htext ↦ ?_
    rw [value?_number hc htext, ← List.cons_append, ← hcons, number?_integerText hrest i inRange,
      Option.map_some]
  | string s =>
    rw [prettyAt, quoted]
    refine .of_consumed fun text rest _ htext ↦ ?_
    simp only [value?_string htext, List.append_assoc, List.singleton_append,
      stringBody?_escaped, Option.map_some, String.ofList_toList]
  | @array n items hitems ih =>
    cases items with
    | nil =>
      exact .of_consumed fun text rest _ htext ↦
        value?_emptyArray htext (dropWhile_of_stops (stops_cons.mpr (by decide)))
    | cons item items =>
      intro text rest _ htext
      rw [prettyAt, List.cons_append, List.append_assoc, List.append_assoc] at htext
      obtain ⟨c, shown, hcons, -, hc⟩ :=
        exists_prettyAt_eq_cons (hitems item List.mem_cons_self) (depth + 1)
      have hbody := (dropWhile_newLine (depth + 1) _).trans
        (dropWhile_prettyAt (hitems item List.mem_cons_self) (depth + 1)
          (prettyItems depth items ++ rest))
      refine value?_array htext ?_
        (items?_prettyItems hitems (fun value h ↦ ih value h (depth + 1)) hbody)
      intro other hother
      rw [hbody, hcons] at hother
      exact hc (List.cons.inj hother).1
  | @object n members horder hmembers ih =>
    cases members with
    | nil =>
      exact .of_consumed fun text rest _ htext ↦
        value?_emptyObject htext (dropWhile_of_stops (stops_cons.mpr (by decide)))
    | cons member members =>
      intro text rest _ htext
      rw [prettyAt] at htext
      simp only [List.cons_append, List.append_assoc] at htext
      have hbody := dropWhile_newLine (depth + 1) (quoted member.1 ++ ':' :: ' ' ::
        (member.2.prettyAt (depth + 1) ++ (prettyMembers depth members ++ rest)))
      rw [← ofMembers_of_inOrder horder]
      refine value?_object htext ?_
        (members?_prettyMembers hmembers (fun other h ↦ ih other h (depth + 1)) hbody)
      intro other hother
      rw [hbody] at hother
      cases hother

/-- A legible value is the value of its text, blanks after it apart. -/
theorem parse?_pretty {value : Json} (h : Legible maxDepth value) (blanks : List Char)
    (hblanks : ∀ c ∈ blanks, isBlank c) :
    parse? (String.ofList (value.pretty ++ blanks)) = some value := by
  have hstops : Stops continuesNumber blanks := fun c hc ↦
    continuesNumber_of_isBlank (hblanks c (List.mem_of_mem_head? hc))
  have hstart : (String.ofList (value.pretty ++ blanks)).toList.dropWhile isBlank =
      value.pretty ++ blanks := by
    rw [String.toList_ofList]
    exact dropWhile_prettyAt h 0 blanks
  obtain ⟨hlt, hvalue⟩ := value?_prettyAt h 0 _ blanks hstops hstart
  rw [parse?, hvalue]
  exact if_pos (List.all_eq_true.mpr hblanks)

end StateMachine.Json
