import DumpRules.Proofs.Grammar.Scanners

/-!
# Tokens and what they mean

The tokens of clause lists are read loosely and judged afterwards. Here the two steps are put
together: a text is the written form of a comparator (`comparatorWritten_iff`) or of a bound
(`boundWritten_iff`) iff its class takes it at its full length and its judgement gives it that
meaning.
-/

namespace DumpRules.Grammar

set_option autoImplicit false

/-! ## Character classes -/

theorem isGap_iff (c : Char) : isGap c = true ↔ White c := by
  simp [isGap, White, or_assoc]

theorem isUpper_iff (c : Char) : c.isUpper = true ↔ 'A' ≤ c ∧ c ≤ 'Z' :=
  decide_eq_true_iff

theorem isLower_iff (c : Char) : c.isLower = true ↔ 'a' ≤ c ∧ c ≤ 'z' := by
  show (decide ('a' ≤ c) && decide (c ≤ 'z')) = true ↔ _
  rw [Bool.and_eq_true, decide_eq_true_iff, decide_eq_true_iff]

theorem isAlpha_iff (c : Char) : c.isAlpha = true ↔ Letter c := by
  show (c.isUpper || c.isLower) = true ↔ _
  rw [Bool.or_eq_true, isUpper_iff, isLower_iff]
  rfl

theorem isDigit_iff (c : Char) : c.isDigit = true ↔ Digit c := by
  simp [Char.isDigit, Digit, Char.le_def]

theorem isSign_iff (c : Char) : isSign c = true ↔ Sign c := by
  simp [isSign, Sign, or_assoc]

theorem isNodeStart_iff (c : Char) : isNodeStart c = true ↔ NodeFirst c := by
  simp [isNodeStart, NodeFirst, isAlpha_iff]

theorem isNodeChar_iff (c : Char) : isNodeChar c = true ↔ NodeLater c := by
  simp [isNodeChar, NodeLater, Char.isAlphanum, isAlpha_iff, isDigit_iff, or_assoc]

theorem isBoundChar_iff (c : Char) : isBoundChar c = true ↔ BoundLater c := by
  simp [isBoundChar, BoundLater, Char.isAlphanum, isAlpha_iff, isDigit_iff, or_assoc]

theorem not_letter_of_sign {c : Char} (sign : Sign c) : ¬Letter c := by
  simp only [Sign, List.mem_cons, List.not_mem_nil, or_false] at sign
  rcases sign with rfl | rfl | rfl | rfl <;> rw [← isAlpha_iff] <;> decide

/-! ## Tokens -/

theorem runLength_le (p : Char → Bool) (cs : List Char) : runLength p cs ≤ cs.length :=
  (List.takeWhile_sublist p).length_le

theorem wordLength_le (first later : Char → Bool) (cs : List Char) :
    wordLength first later cs ≤ cs.length := by
  cases cs with
  | nil => simp [wordLength]
  | cons c cs =>
      have bounded := runLength_le later cs
      simp only [wordLength, List.length_cons]
      split <;> omega

theorem comparatorLength_le (cs : List Char) : comparatorLength cs ≤ cs.length := by
  unfold comparatorLength
  have signs := runLength_le isSign cs
  have letters := runLength_le Char.isAlpha cs
  split <;> omega

theorem boundLength_le (cs : List Char) : boundLength cs ≤ cs.length := by
  cases cs with
  | nil => simp [boundLength]
  | cons c cs =>
      have unsigned := runLength_le isBoundChar (c :: cs)
      have signed := runLength_le isBoundChar cs
      simp only [boundLength]
      split
      · split <;> simp only [List.length_cons] <;> omega
      · exact unsigned

/-- A word is a first character of one class and all that follows of another. -/
theorem wordToken_eq_some {rule : Rule} {first later : Char → Bool} {P Q : Char → Prop}
    (sameFirst : ∀ c, first c = true ↔ P c) (sameLater : ∀ c, later c = true ↔ Q c)
    {cur cur' : Cursor} {t : Token} :
    (token rule (wordLength first later) cur).result = some (t, cur') ↔
      ∃ c cs, P c ∧ (∀ x ∈ cs, Q x) ∧ Ends Q cur'.rest ∧ cur.rest = c :: cs ++ cur'.rest ∧
        cur'.offset = cur.offset + byteLength (c :: cs) ∧
        t = ⟨String.ofList (c :: cs), ⟨cur.offset, cur'.offset⟩⟩ := by
  rw [token_eq_some (wordLength_le first later)]
  constructor
  · rintro ⟨text, filled, split, long, moved, rfl⟩
    cases text with
    | nil => exact absurd rfl filled
    | cons c cs =>
        rw [split, wordLength_append_iff sameFirst sameLater] at long
        exact ⟨c, cs, long.1, long.2.1, long.2.2, split, moved, rfl⟩
  · rintro ⟨c, cs, isFirst, areLater, ends, split, moved, rfl⟩
    refine ⟨c :: cs, by simp, split, ?_, moved, rfl⟩
    rw [split, wordLength_append_iff sameFirst sameLater]
    exact ⟨isFirst, areLater, ends⟩

/-- A comparator is a run of signs or a run of letters. -/
theorem comparatorLength_append_iff {text rest : List Char} (filled : text ≠ []) :
    comparatorLength (text ++ rest) = text.length ↔
      (∀ c ∈ text, Sign c) ∧ Ends Sign rest ∨ (∀ c ∈ text, Letter c) ∧ Ends Letter rest := by
  cases text with
  | nil => exact absurd rfl filled
  | cons c cs =>
      unfold comparatorLength
      by_cases sign : isSign c
      · have notLetters : ¬∀ x ∈ c :: cs, Letter x := fun letters =>
          not_letter_of_sign ((isSign_iff c).1 sign) (letters c (by simp))
        have long : runLength isSign (c :: cs ++ rest) = runLength isSign (cs ++ rest) + 1 := by
          simp [runLength, sign]
        rw [← runLength_append_iff isSign_iff, long]
        simp only [notLetters, false_and, or_false]
      · have notSigns : ¬∀ x ∈ c :: cs, Sign x := fun signs =>
          sign ((isSign_iff c).2 (signs c (by simp)))
        have unsigned : runLength isSign (c :: cs ++ rest) = 0 := by simp [runLength, sign]
        rw [unsigned, runLength_append_iff isAlpha_iff]
        simp only [notSigns, false_and, false_or]

/-- A bound is a run of its characters, perhaps behind a sign. -/
theorem boundLength_append_iff {text rest : List Char} (filled : text ≠ []) :
    boundLength (text ++ rest) = text.length ↔
      ∃ sign body, text = sign ++ body ∧ (sign = [] ∨ sign = ['-'] ∨ sign = ['+']) ∧
        body ≠ [] ∧ (∀ c ∈ body, BoundLater c) ∧ Ends BoundLater rest := by
  cases text with
  | nil => exact absurd rfl filled
  | cons c cs =>
      by_cases signed : c = '-' ∨ c = '+'
      · have notBody : ¬BoundLater c := by
          rw [← isBoundChar_iff]
          rcases signed with rfl | rfl <;> decide
        have long : boundLength (c :: cs ++ rest) = (c :: cs).length ↔
            cs ≠ [] ∧ runLength isBoundChar (cs ++ rest) = cs.length := by
          simp only [List.cons_append, boundLength, beq_iff_eq, Bool.or_eq_true, signed, if_true]
          cases cs <;> split <;> simp_all
        rw [long, runLength_append_iff isBoundChar_iff]
        constructor
        · rintro ⟨more, body, ends⟩
          exact ⟨[c], cs, rfl, by simpa using signed, more, body, ends⟩
        · rintro ⟨sign, body, split, which, more, later, ends⟩
          rcases which with rfl | rfl | rfl
          · rw [List.nil_append] at split
            exact absurd (later c (split ▸ List.mem_cons_self)) notBody
          all_goals
            obtain ⟨-, rfl⟩ := List.cons.inj split
            exact ⟨more, later, ends⟩
      · have long : boundLength (c :: cs ++ rest) = runLength isBoundChar (c :: cs ++ rest) := by
          simp only [List.cons_append, boundLength, beq_iff_eq, Bool.or_eq_true, signed, if_false]
        rw [long, runLength_append_iff isBoundChar_iff]
        constructor
        · rintro ⟨body, ends⟩
          exact ⟨[], c :: cs, rfl, .inl rfl, by simp, body, ends⟩
        · rintro ⟨sign, body, split, which, -, later, ends⟩
          rcases which with rfl | rfl | rfl
          · rw [List.nil_append] at split
            exact ⟨split ▸ later, ends⟩
          · exact absurd (.inl (List.cons.inj split).1) signed
          · exact absurd (.inr (List.cons.inj split).1) signed

/-! ## Comparators -/

/-- The judgement of a comparator, by the two tables of its written forms. -/
theorem ofToken?_eq_some_iff {token : String} {c : Comparator} :
    Comparator.ofToken? token = some c ↔
      (token, c) ∈ signSpellings ∨
        (String.ofList (token.toList.map Char.toLower), c) ∈ wordSpellings := by
  have signs : ∀ x ∈ signSpellings, Comparator.ofToken? x.1 = some x.2 ∧
      ∀ y ∈ wordSpellings, String.ofList (x.1.toList.map Char.toLower) ≠ y.1 := by decide
  constructor
  · intro known
    unfold Comparator.ofToken? at known
    split at known
    case h_8 =>
      split at known <;> simp_all [wordSpellings]
    all_goals
      cases known
      exact .inl (by decide)
  · rintro (sign | word)
    · exact (signs _ sign).1
    · have notSign : ∀ x ∈ signSpellings, token ≠ x.1 := by
        rintro x member rfl
        exact (signs x member).2 _ word rfl
      simp only [wordSpellings, List.mem_cons, Prod.mk.injEq, List.not_mem_nil, or_false] at word
      unfold Comparator.ofToken?
      split
      case h_8 =>
        rcases word with ⟨lowered, rfl⟩ | ⟨lowered, rfl⟩ | ⟨lowered, rfl⟩ | ⟨lowered, rfl⟩ |
          ⟨lowered, rfl⟩ | ⟨lowered, rfl⟩ <;> simp [lowered]
      all_goals simp [signSpellings] at notSign

theorem signs_of_spelled {text : List Char} {c : Comparator}
    (spelled : (String.ofList text, c) ∈ signSpellings) : text ≠ [] ∧ ∀ x ∈ text, Sign x := by
  have table : ∀ x ∈ signSpellings, x.1.toList ≠ [] ∧ x.1.toList.all isSign = true := by
    decide
  simpa only [String.toList_ofList, List.all_eq_true, isSign_iff] using table _ spelled

theorem letter_of_toLower {c : Char} (letter : Letter c.toLower) : Letter c := by
  by_cases upper : 'A' ≤ c ∧ c ≤ 'Z'
  · exact .inl upper
  · have kept : c.toLower = c := dif_neg upper
    rwa [kept] at letter

theorem letters_of_spelled {text : List Char} {c : Comparator}
    (spelled : (String.ofList (text.map Char.toLower), c) ∈ wordSpellings) :
    text ≠ [] ∧ ∀ x ∈ text, Letter x := by
  have table : ∀ x ∈ wordSpellings, x.1.toList ≠ [] ∧ x.1.toList.all Char.isAlpha = true := by
    decide
  have facts := table _ spelled
  simp only [String.toList_ofList, List.all_eq_true, isAlpha_iff, ne_eq, List.map_eq_nil_iff,
    List.forall_mem_map] at facts
  exact ⟨facts.1, fun x member => letter_of_toLower (facts.2 x member)⟩

theorem comparatorWritten_iff {c : Comparator} {source rest : List Char} :
    ComparatorWritten c source rest ↔
      ∃ text, text ≠ [] ∧ source = text ++ rest ∧ comparatorLength source = text.length ∧
        Comparator.ofToken? (String.ofList text) = some c := by
  constructor
  · rintro (⟨spelled, ends⟩ | ⟨spelled, ends⟩)
    · rename_i text
      obtain ⟨filled, signs⟩ := signs_of_spelled spelled
      exact ⟨text, filled, rfl, (comparatorLength_append_iff filled).2 (.inl ⟨signs, ends⟩),
        ofToken?_eq_some_iff.2 (.inl spelled)⟩
    · rename_i text
      obtain ⟨filled, letters⟩ := letters_of_spelled spelled
      refine ⟨text, filled, rfl, (comparatorLength_append_iff filled).2 (.inr ⟨letters, ends⟩),
        ofToken?_eq_some_iff.2 (.inr ?_)⟩
      rwa [String.toList_ofList]
  · rintro ⟨text, filled, rfl, long, known⟩
    obtain ⟨x, member⟩ := List.exists_mem_of_ne_nil text filled
    rw [ofToken?_eq_some_iff, String.toList_ofList] at known
    rw [comparatorLength_append_iff filled] at long
    rcases known with spelled | spelled
    · rcases long with ⟨-, ends⟩ | ⟨letters, -⟩
      · exact .signs spelled ends
      · exact absurd (letters x member)
          (not_letter_of_sign ((signs_of_spelled spelled).2 x member))
    · rcases long with ⟨signs, -⟩ | ⟨-, ends⟩
      · exact absurd ((letters_of_spelled spelled).2 x member)
          (not_letter_of_sign (signs x member))
      · exact .letters spelled ends

/-! ## Bounds -/

theorem digitsValue_eq (start : Nat) (digits : List Char) :
    Text.digitsValue start digits =
      Nat.ofDigits 10 (digits.reverse.map Text.digitValue) + 10 ^ digits.length * start := by
  induction digits generalizing start with
  | nil => simp [Text.digitsValue]
  | cons d digits ih =>
      have step : Text.digitsValue start (d :: digits) =
          Text.digitsValue (10 * start + Text.digitValue d) digits := rfl
      rw [step, ih, List.reverse_cons, List.map_append, Nat.ofDigits_append]
      simp only [List.map_cons, List.map_nil, Nat.ofDigits_singleton, List.length_map,
        List.length_reverse, List.length_cons, pow_succ]
      ring

theorem numeral?_eq_some_iff {cs : List Char} {n : Nat} :
    Text.numeral? cs = some n ↔
      cs ≠ [] ∧ (∀ d ∈ cs, Digit d) ∧ n = Nat.ofDigits 10 (cs.reverse.map Text.digitValue) := by
  rw [eq_comm (a := n)]
  simp [Text.numeral?, digitsValue_eq, isDigit_iff, and_assoc]

theorem isDigit_of_mem_toString {n : Nat} {d : Char} (member : d ∈ (toString n).toList) :
    d.isDigit = true := by
  rw [Nat.toString_eq_ofList_toDigits, String.toList_ofList] at member
  exact Nat.isDigit_of_mem_toDigits (by decide) (by decide) member

/-- A count is written as a numeral that denotes it. -/
theorem numeral?_toString (n : Nat) : Text.numeral? (toString n).toList = some n := by
  have decimal : (toString n).toList.all Char.isDigit = true :=
    List.all_eq_true.2 fun d => isDigit_of_mem_toString
  have value : Text.digitsValue 0 (Nat.toDigits 10 n) = n :=
    calc
      Text.digitsValue 0 (Nat.toDigits 10 n) = Nat.ofDigitChars 10 (Nat.toDigits 10 n) 0 :=
        Nat.ofDigitChars_eq_foldl.symm
      _ = n := Nat.ofDigitChars_ten_toDigits
  rw [Nat.toString_eq_ofList_toDigits, String.toList_ofList] at decimal ⊢
  rw [Text.numeral?, if_pos ⟨Nat.toDigits_ne_nil, decimal⟩, value]

theorem signedNumeral?_eq_some_iff {text : List Char} {n : Nat} :
    Text.signedNumeral? text = some n ↔
      ∃ plus digits, text = plus ++ digits ∧ (plus = [] ∨ plus = ['+']) ∧
        Text.numeral? digits = some n := by
  unfold Text.signedNumeral?
  split
  · rename_i cs
    constructor
    · exact fun known => ⟨['+'], cs, rfl, .inr rfl, known⟩
    · rintro ⟨plus, digits, split, rfl | rfl, known⟩
      · rw [List.nil_append] at split
        have decimal := (numeral?_eq_some_iff.1 known).2.1 '+' (split ▸ List.mem_cons_self)
        exact absurd ((isDigit_iff _).2 decimal) (by decide)
      · obtain ⟨-, rfl⟩ := List.cons.inj split
        exact known
  · rename_i unsigned
    constructor
    · exact fun known => ⟨[], text, rfl, .inl rfl, known⟩
    · rintro ⟨plus, digits, rfl, rfl | rfl, known⟩
      · exact known
      · exact absurd rfl (unsigned digits)

theorem word64_eq_some_iff {n : Nat} {b : UInt64} :
    (if n < UInt64.size then some n.toUInt64 else none) = some b ↔ b.toNat = n := by
  constructor
  · intro fits
    split at fits
    · rename_i small
      cases fits
      exact UInt64.toNat_ofNat_of_lt small
    · cases fits
  · rintro rfl
    rw [if_pos b.toNat_lt]
    simp

/-- The judgement of a bound: digits of a number of 64 bits, perhaps behind a plus sign. -/
theorem count64?_eq_some_iff {text : List Char} {b : UInt64} :
    Text.count64? text = some b ↔
      ∃ plus digits, text = plus ++ digits ∧ (plus = [] ∨ plus = ['+']) ∧ digits ≠ [] ∧
        (∀ d ∈ digits, Digit d) ∧
        b.toNat = Nat.ofDigits 10 (digits.reverse.map Text.digitValue) := by
  simp only [Text.count64?, Option.bind_eq_some_iff, word64_eq_some_iff, exists_eq_right',
    signedNumeral?_eq_some_iff, numeral?_eq_some_iff]

theorem boundWritten_iff {b : UInt64} {source rest : List Char} :
    BoundWritten b source rest ↔
      ∃ text, text ≠ [] ∧ source = text ++ rest ∧ boundLength source = text.length ∧
        Text.count64? text = some b := by
  constructor
  · rintro ⟨sign, filled, decimal, value, ends⟩
    rename_i plus digits
    have more : plus ++ digits ≠ [] := by simp [filled]
    refine ⟨plus ++ digits, more, rfl, (boundLength_append_iff more).2 ?_,
      count64?_eq_some_iff.2 ⟨plus, digits, rfl, sign, filled, decimal, value⟩⟩
    exact ⟨plus, digits, rfl, sign.imp_right .inr, filled,
      fun d member => .inr (.inl (decimal d member)), ends⟩
  · rintro ⟨text, more, rfl, long, known⟩
    obtain ⟨plus, digits, rfl, sign, filled, decimal, value⟩ := count64?_eq_some_iff.1 known
    obtain ⟨-, -, -, -, -, -, ends⟩ := (boundLength_append_iff more).1 long
    exact .mk sign filled decimal value ends

end DumpRules.Grammar
