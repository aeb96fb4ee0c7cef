import Entitlements.Json.Parser
import Entitlements.Json.Printer
import Entitlements.Proofs.Time.Written

/-!
What is printed is parsed back. The compact text of a value, followed by anything that may follow a
value in a document, is read as that value, and reading stops where the text ends. So the text
determines the value. Values with fractions are left out: what they are printed as depends on
shortest digits, and neither identifiers nor rights have any.

`IsReadBack` is the one thing to know about a value, and there is a lemma for each way in which a
value is put together; neither the parser nor the printer is opened after that.
-/

namespace Entitlements.Json

open Text Decimal

/-! ### Strings -/

theorem hexValue?_hexDigit {n : Nat} (h : n < 16) : hexValue? (hexDigit n) = some n := by
  have hall : ∀ n < 16, hexValue? (hexDigit n) = some n := by decide
  exact hall n h

theorem unit16_hex {n : Nat} (h : n < 0x10000) (rest : List Char) :
    unit16 (hex 4 n ++ rest) = some (n, rest) := by
  simp only [hex, List.nil_append, List.cons_append, unit16,
    hexValue?_hexDigit (Nat.mod_lt _ (by decide : 0 < 16)), Option.bind_eq_bind, Option.bind_some,
    Option.some.injEq, Prod.mk.injEq, and_true]
  omega

theorem escapedUnits_hex {c : Char} (h : c.toNat < 0x20) (rest : List Char) :
    escapedUnits (hex 4 c.toNat ++ rest) = some (c, rest) := by
  have hplain : c.toNat < 0xD800 := by omega
  simp only [escapedUnits, unit16_hex (by omega : c.toNat < 0x10000), Option.bind_eq_bind,
    Option.bind_some, hplain, true_or, ↓reduceIte, Char.ofNat_toNat]

/-- Reading one character back, whether or not it was escaped. -/
theorem stringBody_stringChar (budget : Nat) (seen : List Char) (c : Char) (rest : List Char) :
    stringBody (budget + 1) seen (stringChar c ++ rest) = stringBody budget (c :: seen) rest := by
  unfold stringChar
  split
  · next h => subst h; rfl
  split
  · next h => subst h; rfl
  split
  · next hcontrol =>
    unfold controlEscape
    repeat' split
    · next h => subst h; rfl
    · next h => subst h; rfl
    · next h => subst h; rfl
    · next h => subst h; rfl
    · next h => subst h; rfl
    · simp only [List.cons_append, stringBody, escapedUnits_hex hcontrol, Option.bind_eq_bind,
        Option.bind_some]
  · next hquote hslash hplain =>
    have hkept : ¬(c = '\\' ∨ c.toNat < 0x20) := not_or.2 ⟨hslash, hplain⟩
    rw [List.singleton_append, stringBody, if_neg hkept]
    · exact hquote
    · exact fun _ h _ => hslash h
    · exact fun _ _ h _ => hslash h

theorem stringBody_flatMap (cs seen rest : List Char) {budget : Nat} (h : cs.length < budget) :
    stringBody budget seen (cs.flatMap stringChar ++ '"' :: rest) =
      some (String.ofList (seen.reverse ++ cs), rest) := by
  induction cs generalizing seen budget with
  | nil =>
    obtain ⟨budget, rfl⟩ := Nat.exists_eq_succ_of_ne_zero (Nat.ne_of_gt h)
    simp [stringBody]
  | cons c cs ih =>
    obtain ⟨budget, rfl⟩ := Nat.exists_eq_succ_of_ne_zero (Nat.ne_of_gt (Nat.zero_lt_of_lt h))
    rw [List.length_cons] at h
    rw [List.flatMap_cons, List.append_assoc, stringBody_stringChar, ih _ (by omega)]
    simp

theorem length_le_flatMap_stringChar (cs : List Char) :
    cs.length ≤ (cs.flatMap stringChar).length := by
  induction cs with
  | nil => exact Nat.le_refl 0
  | cons c cs ih =>
    have hc : 0 < (stringChar c).length := by
      unfold stringChar controlEscape
      repeat' split
      all_goals simp
    rw [List.flatMap_cons, List.length_append, List.length_cons]
    omega

/-- A string after its opening quote. -/
theorem stringBody_stringText (s : String) (rest : List Char) :
    stringBody ((s.toList.flatMap stringChar ++ '"' :: rest).length + 1) []
      (s.toList.flatMap stringChar ++ '"' :: rest) = some (s, rest) := by
  have hlength := length_le_flatMap_stringChar s.toList
  rw [stringBody_flatMap _ _ _ (by rw [List.length_append]; omega)]
  simp

/-! ### Numbers -/

/-- May a text follow a value in a document? -/
def EndsValue (rest : List Char) : Prop :=
  ∀ c, rest.head? = some c → c = ',' ∨ c = ']' ∨ c = '\x7d'

theorem endsValue_nil : EndsValue [] := by
  intro c h
  cases h

theorem endsValue_comma (rest : List Char) : EndsValue (',' :: rest) := by
  intro c h
  cases h
  exact .inl rfl

theorem endsValue_bracket (rest : List Char) : EndsValue (']' :: rest) := by
  intro c h
  cases h
  exact .inr (.inl rfl)

theorem endsValue_brace (rest : List Char) : EndsValue ('\x7d' :: rest) := by
  intro c h
  cases h
  exact .inr (.inr rfl)

/-- What ends a value ends a number in particular. -/
theorem EndsValue.endsNumber {rest : List Char} (h : EndsValue rest) :
    (∀ c, rest.head? = some c → isDigit c = false) ∧ fraction rest = some ([], rest) ∧
      readPower rest = some (none, rest) := by
  rcases rest with _ | ⟨c, rest⟩
  · refine ⟨fun c hc => ?_, rfl, rfl⟩
    cases hc
  · have hother : ∀ c', (c :: rest).head? = some c' → c = c' := fun c' hc => Option.some.inj hc
    rcases h c rfl with rfl | rfl | rfl
    all_goals
      refine ⟨fun c' hc => ?_, rfl, rfl⟩
      rw [← hother c' hc]
      decide

theorem isDigit_of_mem_toDigits {n : Nat} {c : Char} (h : c ∈ Nat.toDigits 10 n) :
    isDigit c = true :=
  isDigit_of_isDigit (Nat.isDigit_of_mem_toDigits (by omega) (by omega) h)

theorem takeWhile_toDigits (n : Nat) {rest : List Char}
    (h : ∀ c, rest.head? = some c → isDigit c = false) :
    (Nat.toDigits 10 n ++ rest).takeWhile isDigit = Nat.toDigits 10 n ∧
      (Nat.toDigits 10 n ++ rest).dropWhile isDigit = rest := by
  rw [List.takeWhile_append_of_pos fun c hc => isDigit_of_mem_toDigits hc,
    List.dropWhile_append_of_pos fun c hc => isDigit_of_mem_toDigits hc]
  rcases rest with _ | ⟨c, rest⟩
  · simp
  · simp [h c rfl]

theorem eq_zero_of_toDigits {n : Nat} (hlength : (Nat.toDigits 10 n).length = 1)
    (h : (Nat.toDigits 10 n).head? = some '0') : n = 0 := by
  obtain ⟨c, hc⟩ := List.length_eq_one_iff.1 hlength
  rw [hc] at h
  cases h
  have hvalue := congrArg ofDigits hc
  rw [ofDigits_toDigits] at hvalue
  exact hvalue

/-- Only zero is written with a leading zero. -/
theorem length_of_head?_toDigits {n : Nat} (h : (Nat.toDigits 10 n).head? = some '0') :
    (Nat.toDigits 10 n).length = 1 := by
  induction n using Nat.strongRecOn with
  | ind n ih =>
    by_cases hn : n < 10
    · rw [Nat.toDigits_of_lt_base hn, List.length_singleton]
    · exfalso
      have hle : 10 ≤ n := Nat.not_lt.1 hn
      rw [Nat.toDigits_of_base_le (by decide) hle, List.head?_append,
        Option.or_of_isSome (List.isSome_head?.2 Nat.toDigits_ne_nil)] at h
      -- The digits before the last are those of a smaller number, so they are a zero alone.
      have hlength := ih (n / 10) (by omega) h
      have hzero := eq_zero_of_toDigits hlength h
      omega

theorem unsigned_toDigits {mostDigits n : Nat} (negative : Bool)
    (h : (Nat.toDigits 10 n).length ≤ mostDigits) {rest : List Char} (hrest : EndsValue rest) :
    unsigned mostDigits negative (Nat.toDigits 10 n ++ rest) =
      some (.int (if negative then -(n : Int) else n), rest) := by
  obtain ⟨hdigit, hfraction, hpower⟩ := hrest.endsNumber
  obtain ⟨htake, hdrop⟩ := takeWhile_toDigits n hdigit
  have hsome : (Nat.toDigits 10 n).isEmpty = false := by
    rw [List.isEmpty_eq_false_iff]
    exact Nat.toDigits_ne_nil
  have hlead : ¬((Nat.toDigits 10 n).head? = some '0' ∧ (Nat.toDigits 10 n).length ≠ 1) :=
    fun ⟨hzero, hlength⟩ => hlength (length_of_head?_toDigits hzero)
  simp only [unsigned, htake, hdrop, hsome, hlead, Bool.false_eq_true, or_self, ↓reduceIte,
    Nat.not_lt.2 h, hfraction, hpower, Option.bind_eq_bind, Option.bind_some, List.isEmpty_nil,
    and_self, ofDigits_toDigits]

theorem numeral_intText {mostDigits : Nat} (n : Int)
    (h : (Nat.toDigits 10 n.natAbs).length ≤ mostDigits) {rest : List Char}
    (hrest : EndsValue rest) : numeral mostDigits (intText n ++ rest) = some (.int n, rest) := by
  -- No digit is the first letter of one of the words.
  obtain ⟨d, ds, hds⟩ := List.exists_cons_of_ne_nil (Nat.toDigits_ne_nil (n := n.natAbs) (b := 10))
  have hdigit : isDigit d = true := isDigit_of_mem_toDigits (hds ▸ List.mem_cons_self)
  have hword (w : Char) (hw : isDigit w = false) : d ≠ w := by
    rintro rfl
    rw [hw] at hdigit
    cases hdigit
  have hinfinity (negative : Bool) : infinity negative (d :: (ds ++ rest)) = none := by
    unfold infinity
    split
    · next heq => exact (hword 'I' (by decide) (List.cons.inj heq).1).elim
    · rfl
  have hread (negative : Bool) := unsigned_toDigits negative h hrest
  rw [hds, List.cons_append] at hread
  by_cases hn : n < 0
  · rw [intText, if_pos hn, hds, List.singleton_append, List.cons_append, List.cons_append, numeral]
    · have hvalue : -(n.natAbs : Int) = n := by omega
      rw [hinfinity, hread, if_pos rfl, hvalue]
      rfl
  · rw [intText, if_neg hn, hds, List.nil_append, List.cons_append, numeral.eq_def]
    split
    · next heq => exact (hword 'N' (by decide) (List.cons.inj heq).1).elim
    · next heq => exact (hword '-' (by decide) (List.cons.inj heq).1).elim
    · have hvalue : (n.natAbs : Int) = n := by omega
      rw [hinfinity, hread, if_neg (by decide), hvalue]
      rfl

/-! ### Values -/

/-- Is the compact text of a value read as the value, within limits? It starts with neither a space
nor the end of a list, so what stands before it cannot swallow it. -/
structure IsReadBack (limits : Limits) (x : Json) : Prop where
  starts : ∃ c cs, x.compact = c :: cs ∧ isSpace c = false ∧ c ≠ ']'
  reads : ∀ budget rest, 2 * x.compact.length ≤ budget → EndsValue rest →
    value limits budget (x.compact ++ rest) = some (x, rest)

theorem skipSpace_cons {c : Char} (h : isSpace c = false) (cs : List Char) :
    skipSpace (c :: cs) = c :: cs := by
  rw [skipSpace, List.dropWhile_cons, h]
  rfl

/-- A budget for a text that is not empty can be spent from. -/
theorem exists_budget {cs : List Char} (h : cs ≠ []) {budget : Nat} (hle : 2 * cs.length ≤ budget) :
    ∃ less, budget = less + 1 := by
  have hpos := List.length_pos_iff.2 h
  exact ⟨budget - 1, by omega⟩

namespace IsReadBack

variable {limits : Limits}

/-- A value that is read by what stands at the start of its text. -/
theorem of_cons (c : Char) (cs : List Char) {x : Json} (hx : x.compact = c :: cs)
    (hspace : isSpace c = false) (hend : c ≠ ']')
    (h : ∀ budget rest, 2 * x.compact.length ≤ budget + 1 → EndsValue rest →
      value limits (budget + 1) (c :: (cs ++ rest)) = some (x, rest)) : IsReadBack limits x where
  starts := ⟨c, cs, hx, hspace, hend⟩
  reads budget rest hbudget hrest := by
    obtain ⟨less, rfl⟩ := exists_budget (by simp [hx]) hbudget
    rw [hx, List.cons_append]
    exact h less rest hbudget hrest

theorem null : IsReadBack limits .null :=
  of_cons 'n' ['u', 'l', 'l'] rfl rfl (by decide) fun _ _ _ _ => rfl

theorem bool (b : Bool) : IsReadBack limits (.bool b) := by
  cases b with
  | false =>
    exact of_cons 'f' ['a', 'l', 's', 'e'] rfl rfl (by decide) fun _ _ _ _ => rfl
  | true => exact of_cons 't' ['r', 'u', 'e'] rfl rfl (by decide) fun _ _ _ _ => rfl

/-- A string is read by its body once the opening quote is passed. -/
theorem value_quote (budget : Nat) (rest : List Char) :
    value limits (budget + 1) ('"' :: rest) =
      (stringBody (rest.length + 1) [] rest).map fun (s, rest) => (.str s, rest) := by
  rw [value, skipSpace_cons rfl]
  rfl

theorem str (s : String) : IsReadBack limits (.str s) := by
  refine of_cons '"' (s.toList.flatMap stringChar ++ ['"']) rfl rfl (by decide) ?_
  intro budget rest _ _
  rw [List.append_assoc, List.singleton_append, value_quote, stringBody_stringText]
  rfl

/-- A numeral starts with a digit or a minus, and no other value does. -/
theorem ne_of_numeral {c w : Char} (h : isDigit c = true ∨ c = '-')
    (hw : isDigit w = false ∧ w ≠ '-') : c ≠ w := by
  rintro rfl
  rcases h with h | h
  · rw [hw.1] at h
    cases h
  · exact hw.2 h

theorem isSpace_of_numeral {c : Char} (h : isDigit c = true ∨ c = '-') : isSpace c = false := by
  simp [isSpace, ne_of_numeral h (w := ' ') (by decide), ne_of_numeral h (w := '\n') (by decide),
    ne_of_numeral h (w := '\r') (by decide), ne_of_numeral h (w := '\t') (by decide)]

theorem value_numeral (budget : Nat) {c : Char} (h : isDigit c = true ∨ c = '-')
    (rest : List Char) :
    value limits (budget + 1) (c :: rest) = numeral limits.digits (c :: rest) := by
  rw [value, skipSpace_cons (isSpace_of_numeral h)]
  split
  · next heq => exact (ne_of_numeral h (by decide) (List.cons.inj heq).1).elim
  · next heq => exact (ne_of_numeral h (by decide) (List.cons.inj heq).1).elim
  · next heq => exact (ne_of_numeral h (by decide) (List.cons.inj heq).1).elim
  · next heq => exact (ne_of_numeral h (by decide) (List.cons.inj heq).1).elim
  · next heq => exact (ne_of_numeral h (by decide) (List.cons.inj heq).1).elim
  · next heq => exact (ne_of_numeral h (by decide) (List.cons.inj heq).1).elim
  · rfl

theorem exists_intText_cons (n : Int) :
    ∃ c cs, intText n = c :: cs ∧ (isDigit c = true ∨ c = '-') := by
  obtain ⟨d, ds, hds⟩ := List.exists_cons_of_ne_nil (Nat.toDigits_ne_nil (n := n.natAbs) (b := 10))
  have hdigit : isDigit d = true := isDigit_of_mem_toDigits (hds ▸ List.mem_cons_self)
  by_cases hn : n < 0
  · exact ⟨'-', d :: ds, by rw [intText, if_pos hn, hds]; rfl, .inr rfl⟩
  · exact ⟨d, ds, by rw [intText, if_neg hn, hds]; rfl, .inl hdigit⟩

theorem int {n : Int} (h : (Nat.toDigits 10 n.natAbs).length ≤ limits.digits) :
    IsReadBack limits (.int n) := by
  obtain ⟨c, cs, hcs, hc⟩ := exists_intText_cons n
  refine of_cons c cs hcs (isSpace_of_numeral hc) (ne_of_numeral hc (by decide)) ?_
  intro budget rest _ hrest
  rw [value_numeral budget hc, ← List.cons_append, ← hcs, numeral_intText n h hrest]

/-! ### Containers -/

/-- The items of a list after its opening bracket. -/
theorem items_compactItems {xs : List Json} (h : ∀ x ∈ xs, IsReadBack limits x) (hne : xs ≠ [])
    {budget : Nat} (hbudget : 2 * (compactItems xs).length + 1 ≤ budget) (rest : List Char) :
    items limits budget (compactItems xs ++ ']' :: rest) = some (xs, rest) := by
  induction xs generalizing budget with
  | nil => exact (hne rfl).elim
  | cons x xs ih =>
    obtain ⟨budget, rfl⟩ := Nat.exists_eq_succ_of_ne_zero (by omega : budget ≠ 0)
    have hx := h x List.mem_cons_self
    rcases xs with _ | ⟨y, ys⟩
    · rw [compactItems] at hbudget ⊢
      rw [items, hx.reads _ _ (by omega) (endsValue_bracket rest)]
      rfl
    · rw [compactItems] at hbudget ⊢
      rw [List.length_append, List.length_cons] at hbudget
      have hys := ih (fun z hz => h z (List.mem_cons_of_mem _ hz)) (by simp)
        (by omega : 2 * (compactItems (y :: ys)).length + 1 ≤ budget)
      rw [List.append_assoc, List.cons_append, items,
        hx.reads _ _ (by omega) (endsValue_comma _)]
      simp only [Option.bind_eq_bind, Option.bind_some, skipSpace_cons (c := ',') rfl, hys]

/-- The fields of an object after its opening brace. -/
theorem members_compactFields {fields : Fields} (h : ∀ e ∈ fields, IsReadBack limits e.2)
    (hne : fields ≠ []) {budget : Nat} (hbudget : 2 * (compactFields fields).length + 1 ≤ budget)
    (rest : List Char) :
    members limits budget (compactFields fields ++ '\x7d' :: rest) = some (fields, rest) := by
  induction fields generalizing budget with
  | nil => exact (hne rfl).elim
  | cons e fields ih =>
    obtain ⟨budget, rfl⟩ := Nat.exists_eq_succ_of_ne_zero (by omega : budget ≠ 0)
    obtain ⟨key, x⟩ := e
    have hx : IsReadBack limits x := h (key, x) List.mem_cons_self
    rcases fields with _ | ⟨e', fields⟩
    · rw [compactFields] at hbudget ⊢
      simp only [List.length_append, List.length_cons] at hbudget
      have hread := hx.reads budget ('\x7d' :: rest) (by omega) (endsValue_brace rest)
      simp only [stringText, List.cons_append, List.append_assoc, List.nil_append, members,
        skipSpace_cons (c := '"') rfl, stringBody_stringText, Option.bind_eq_bind,
        Option.bind_some, skipSpace_cons (c := ':') rfl, hread, skipSpace_cons (c := '\x7d') rfl]
    · rw [compactFields] at hbudget ⊢
      simp only [List.length_append, List.length_cons] at hbudget
      have hread := hx.reads budget (',' :: (compactFields (e' :: fields) ++ '\x7d' :: rest))
        (by omega) (endsValue_comma _)
      have hfields := ih (fun e he => h e (List.mem_cons_of_mem _ he)) (by simp)
        (by omega : 2 * (compactFields (e' :: fields)).length + 1 ≤ budget)
      simp only [stringText, List.cons_append, List.append_assoc, List.nil_append, members,
        skipSpace_cons (c := '"') rfl, stringBody_stringText, Option.bind_eq_bind,
        Option.bind_some, skipSpace_cons (c := ':') rfl, hread, skipSpace_cons (c := ',') rfl,
        hfields]

theorem value_bracket (inner : Limits) (budget : Nat) {c : Char} {rest : List Char}
    (hc : isSpace c = false) (hend : c ≠ ']') :
    value ⟨inner.nesting + 1, inner.digits⟩ (budget + 1) ('[' :: c :: rest) =
      (items inner budget (c :: rest)).map fun (xs, rest) => (.arr xs, rest) := by
  rw [value, skipSpace_cons rfl]
  simp only [skipSpace_cons hc]
  split
  · next heq => exact (hend (List.cons.inj heq).1).elim
  · next hlimits _ => cases hlimits
  · next hlimits _ =>
    cases hlimits
    rfl

theorem value_brace (inner : Limits) (budget : Nat) (rest : List Char) :
    value ⟨inner.nesting + 1, inner.digits⟩ (budget + 1) ('\x7b' :: '"' :: rest) =
      (members inner budget ('"' :: rest)).map fun (xs, rest) => (.obj xs, rest) := by
  rw [value, skipSpace_cons rfl]
  rfl

theorem compactItems_append_cons (xs : List Json) (y : Json) :
    ∃ cs, compactItems (y :: xs) = y.compact ++ cs := by
  rcases xs with _ | ⟨z, zs⟩
  · exact ⟨[], by rw [compactItems, List.append_nil]⟩
  · exact ⟨_, compactItems.eq_3 y z zs⟩

theorem compactFields_append_cons (fields : Fields) (e : String × Json) :
    ∃ cs, compactFields (e :: fields) = '"' :: cs := by
  obtain ⟨key, x⟩ := e
  rcases fields with _ | ⟨e', fields⟩
  · exact ⟨_, by rw [compactFields]; rfl⟩
  · exact ⟨_, by rw [compactFields]; rfl⟩

/-- A list is read back with one container more than its items need. -/
theorem arr (inner : Limits) {xs : List Json} (h : ∀ x ∈ xs, IsReadBack inner x) :
    IsReadBack ⟨inner.nesting + 1, inner.digits⟩ (.arr xs) := by
  rcases xs with _ | ⟨x, xs⟩
  · exact of_cons '[' [']'] rfl rfl (by decide) fun _ _ _ _ => rfl
  · refine of_cons '[' (compactItems (x :: xs) ++ [']']) rfl rfl (by decide) ?_
    intro budget rest hbudget _
    obtain ⟨c, cs, hstart, hc, hend⟩ := (h x List.mem_cons_self).starts
    obtain ⟨more, hmore⟩ := compactItems_append_cons xs x
    simp only [compact, List.cons_append, List.length_cons, List.length_append] at hbudget
    have hitems := items_compactItems h (by simp)
      (by omega : 2 * (compactItems (x :: xs)).length + 1 ≤ budget) rest
    rw [List.append_assoc, List.singleton_append]
    rw [hmore, hstart, List.cons_append, List.cons_append] at hitems ⊢
    rw [value_bracket inner budget hc hend, hitems]
    rfl

theorem obj (inner : Limits) {fields : Fields} (h : ∀ e ∈ fields, IsReadBack inner e.2) :
    IsReadBack ⟨inner.nesting + 1, inner.digits⟩ (.obj fields) := by
  rcases fields with _ | ⟨e, fields⟩
  · exact of_cons '\x7b' ['\x7d'] rfl rfl (by decide) fun _ _ _ _ => rfl
  · refine of_cons '\x7b' (compactFields (e :: fields) ++ ['\x7d']) rfl rfl
      (by decide) ?_
    intro budget rest hbudget _
    obtain ⟨more, hmore⟩ := compactFields_append_cons fields e
    simp only [compact, List.cons_append, List.length_cons, List.length_append] at hbudget
    have hmembers := members_compactFields h (by simp)
      (by omega : 2 * (compactFields (e :: fields)).length + 1 ≤ budget) rest
    rw [List.append_assoc, List.singleton_append]
    rw [hmore, List.cons_append] at hmembers ⊢
    rw [value_brace inner budget, hmembers]
    rfl

end IsReadBack

/-! ### Values without fractions -/

/-- Is a value made of texts, flags and integers only? -/
inductive IsExact : Json → Prop where
  | null : IsExact .null
  | bool (b : Bool) : IsExact (.bool b)
  | int (n : Int) : IsExact (.int n)
  | str (s : String) : IsExact (.str s)
  | arr {xs : List Json} (h : ∀ x ∈ xs, IsExact x) : IsExact (.arr xs)
  | obj {fields : Fields} (h : ∀ e ∈ fields, IsExact e.2) : IsExact (.obj fields)

/-- Is a value read back within all limits from some bound on? -/
def IsReadBackFrom (bound : Nat) (x : Json) : Prop :=
  ∀ nesting digits, bound ≤ nesting → bound ≤ digits → IsReadBack ⟨nesting, digits⟩ x

theorem IsReadBackFrom.mono {bound more : Nat} {x : Json} (h : IsReadBackFrom bound x)
    (hle : bound ≤ more) : IsReadBackFrom more x :=
  fun nesting digits hn hd => h nesting digits (Nat.le_trans hle hn) (Nat.le_trans hle hd)

/-- One bound serves the members of a list. -/
theorem exists_isReadBackFrom {xs : List α} {part : α → Json}
    (h : ∀ a ∈ xs, ∃ bound, IsReadBackFrom bound (part a)) :
    ∃ bound, ∀ a ∈ xs, IsReadBackFrom bound (part a) := by
  induction xs with
  | nil => exact ⟨0, fun a ha => by cases ha⟩
  | cons a xs ih =>
    obtain ⟨first, hfirst⟩ := h a List.mem_cons_self
    obtain ⟨others, hothers⟩ := ih fun b hb => h b (List.mem_cons_of_mem _ hb)
    refine ⟨max first others, fun b hb => ?_⟩
    rcases List.mem_cons.1 hb with rfl | hb
    · exact hfirst.mono (Nat.le_max_left _ _)
    · exact (hothers b hb).mono (Nat.le_max_right _ _)

/-- The containers of an exact value are one deeper than their members. -/
theorem IsExact.isReadBackFrom {x : Json} (h : x.IsExact) : ∃ bound, IsReadBackFrom bound x := by
  induction h with
  | null => exact ⟨0, fun _ _ _ _ => .null⟩
  | bool b => exact ⟨0, fun _ _ _ _ => .bool b⟩
  | str s => exact ⟨0, fun _ _ _ _ => .str s⟩
  | int n => exact ⟨_, fun _ _ _ hd => .int hd⟩
  | arr _ ih =>
    obtain ⟨bound, hbound⟩ := exists_isReadBackFrom ih
    refine ⟨bound + 1, fun nesting digits hn hd => ?_⟩
    obtain ⟨less, rfl⟩ := Nat.exists_eq_add_one_of_ne_zero (by omega : nesting ≠ 0)
    exact .arr ⟨less, digits⟩ fun x hx => hbound x hx _ _ (by omega) (by omega)
  | obj _ ih =>
    obtain ⟨bound, hbound⟩ := exists_isReadBackFrom ih
    refine ⟨bound + 1, fun nesting digits hn hd => ?_⟩
    obtain ⟨less, rfl⟩ := Nat.exists_eq_add_one_of_ne_zero (by omega : nesting ≠ 0)
    exact .obj ⟨less, digits⟩ fun e he => hbound e he _ _ (by omega) (by omega)

theorem IsReadBack.parse? {limits : Limits} {x : Json} (h : IsReadBack limits x) :
    Json.parse? limits x.text = some x := by
  have hread := h.reads (2 * x.compact.length + 2) [] (by omega) endsValue_nil
  rw [List.append_nil] at hread
  simp only [Json.parse?, text, String.toList_ofList, hread, skipSpace, List.dropWhile_nil,
    List.isEmpty_nil, ↓reduceIte]

/-- The text of an exact value is read as that value by every reader with room for it. -/
theorem IsExact.exists_parse? {x : Json} (h : x.IsExact) : ∃ bound, ∀ nesting digits,
    bound ≤ nesting → bound ≤ digits → Json.parse? ⟨nesting, digits⟩ x.text = some x := by
  obtain ⟨bound, hbound⟩ := h.isReadBackFrom
  exact ⟨bound, fun nesting digits hn hd => (hbound nesting digits hn hd).parse?⟩

/-- The text of an exact value determines it. -/
theorem IsExact.eq_of_text {x y : Json} (hx : x.IsExact) (hy : y.IsExact)
    (h : x.text = y.text) : x = y := by
  obtain ⟨first, hfirst⟩ := hx.exists_parse?
  obtain ⟨second, hsecond⟩ := hy.exists_parse?
  have hread := hfirst (max first second) (max first second) (by omega) (by omega)
  rw [h, hsecond _ _ (by omega) (by omega)] at hread
  exact (Option.some.inj hread).symm

end Entitlements.Json
