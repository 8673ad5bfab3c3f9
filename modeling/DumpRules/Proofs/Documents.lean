import DumpRules.Json.Printer
import DumpRules.Json.Reader
import DumpRules.Proofs.RoundTrip

/-!
# Printed documents are read back

A document that is spread over lines is read back as it was, whatever text is behind it, as long as
that text cannot extend a number. The reader counts levels of nesting and keeps numbers as they are
written, so the statements are about documents `Within` a depth whose numbers are counts. Containers
are dealt with once, for items and for fields: `ReadsBack` says what the reader of an item must do,
and `readList_enclosed` that then the whole list is read. The main statement is `parse?_pretty`.
-/

namespace DumpRules.Json

set_option autoImplicit false

open Grammar

/-! ## White space -/

/-- The white space of the format. -/
def Space (c : Char) : Prop :=
  c = ' ' ∨ c = '\t' ∨ c = '\n' ∨ c = '\r'

instance : DecidablePred Space := fun c =>
  inferInstanceAs (Decidable (c = ' ' ∨ c = '\t' ∨ c = '\n' ∨ c = '\r'))

/-- Nothing but white space. -/
def Blank (cs : List Char) : Prop :=
  ∀ c ∈ cs, Space c

theorem blank_nil : Blank [] := by
  simp [Blank]

theorem Blank.cons {c : Char} {cs : List Char} (space : Space c) (blank : Blank cs) :
    Blank (c :: cs) :=
  List.forall_mem_cons.2 ⟨space, blank⟩

theorem Blank.append {white more : List Char} (blank : Blank white) (further : Blank more) :
    Blank (white ++ more) :=
  List.forall_mem_append.2 ⟨blank, further⟩

/-- A deeper level is indented with blanks too. -/
theorem Blank.deeper {indent : String} (blank : Blank indent.toList) :
    Blank (indent ++ "  ").toList := by
  have two : Blank [' ', ' '] := (blank_nil.cons (.inl rfl)).cons (.inl rfl)
  rw [String.toList_append]
  exact blank.append two

theorem dropSpace_append {white : List Char} (blank : Blank white) (rest : List Char) :
    dropSpace (white ++ rest) = dropSpace rest := by
  apply List.dropWhile_append_of_pos
  intro c member
  simpa [Space, or_assoc] using blank c member

theorem dropSpace_cons {c : Char} (solid : ¬Space c) (rest : List Char) :
    dropSpace (c :: rest) = c :: rest := by
  apply List.dropWhile_cons_of_neg
  simpa [Space, or_assoc] using solid

/-! ## Strings -/

/-- An escape by number gives its character, also where another such escape follows, with which it
could have been a pair of surrogates. -/
theorem readString_unicode {a b c d : Char} {n : Nat} (value : hex4? a b c d = some n)
    (valid : n.isValidChar) (done rest : List Char) :
    readString done ('\\' :: 'u' :: a :: b :: c :: d :: rest) =
      readString (Char.ofNat n :: done) rest := by
  rw [readString.eq_def]
  split
  case h_5 | h_6 => grind
  all_goals simp_all

theorem hexValue?_hexDigit : ∀ n < 16, hexValue? (hexDigit n) = some n := by
  decide

/-- A character is read back from its written form. -/
theorem readString_escapeChar (done : List Char) (c : Char) (rest : List Char) :
    readString done (escapeChar c ++ rest) = readString (c :: done) rest := by
  unfold escapeChar
  split
  case h_8 =>
    split
    · next quote backslash newline ret tab back feed control =>
      have high := hexValue?_hexDigit (c.toNat / 16) (by omega)
      have low := hexValue?_hexDigit (c.toNat % 16) (by omega)
      have value : hex4? '0' '0' (hexDigit (c.toNat / 16)) (hexDigit (c.toNat % 16)) =
          some c.toNat := by
        have zero : hexValue? '0' = some 0 := by decide
        simp only [hex4?, zero, high, low, bind, Option.bind, Option.some.injEq]
        omega
      have read := readString_unicode value c.valid done rest
      rw [Char.ofNat_toNat] at read
      exact read
    · next quote backslash newline ret tab back feed plain =>
      rw [List.singleton_append, readString.eq_def]
      split <;> simp_all
  all_goals
    rw [List.cons_append, List.singleton_append, readString.eq_def]
    rfl

theorem readString_escaped (s done rest : List Char) :
    readString done (s.flatMap escapeChar ++ '"' :: rest) =
      some (String.ofList (done.reverse ++ s), rest) := by
  induction s generalizing done with
  | nil => rw [List.flatMap_nil, List.nil_append, readString, List.append_nil]
  | cons c s ih =>
      rw [List.flatMap_cons, List.append_assoc, readString_escapeChar, ih, List.reverse_cons,
        List.append_assoc, List.singleton_append]

theorem toList_quote (s : String) :
    (quote s).toList = '"' :: (s.toList.flatMap escapeChar ++ ['"']) := by
  rw [quote, String.toList_ofList, List.cons_append]

/-- A string is read back behind its opening quote. -/
theorem readString_quoted (s : String) (rest : List Char) :
    readString [] (s.toList.flatMap escapeChar ++ '"' :: rest) = some (s, rest) := by
  rw [readString_escaped, List.reverse_nil, List.nil_append, String.ofList_toList]

/-! ## Numbers -/

/-- The characters that could continue a count as a number. -/
def NumberLater (c : Char) : Prop :=
  c.isDigit = true ∨ c = '.' ∨ c = 'e' ∨ c = 'E'

instance : DecidablePred NumberLater := fun c =>
  inferInstanceAs (Decidable (c.isDigit = true ∨ c = '.' ∨ c = 'e' ∨ c = 'E'))

/-- A count is written without a leading zero. -/
theorem eq_zero_of_toDigits {n : Nat} {ds : List Char} (digits : Nat.toDigits 10 n = '0' :: ds) :
    n = 0 := by
  induction n using Nat.strongRecOn generalizing ds with
  | ind n ih =>
      rw [Nat.toDigits_eq_if (by decide)] at digits
      split at digits
      · next small =>
        have single : ∀ m < 10, Nat.digitChar m = '0' → m = 0 := by decide
        exact single n small (List.cons.inj digits).1
      · next large =>
        obtain ⟨d, front, shorter⟩ := List.exists_cons_of_ne_nil (@Nat.toDigits_ne_nil (n / 10) 10)
        rw [shorter, List.cons_append] at digits
        have zero := ih (n / 10) (by omega) ((List.cons.inj digits).1 ▸ shorter)
        omega

theorem readDigits_append {ds rest : List Char} (filled : ds ≠ [])
    (decimal : ∀ d ∈ ds, d.isDigit = true) (ends : Ends NumberLater rest) :
    readDigits (ds ++ rest) = some (ds, rest) := by
  have stop : rest.takeWhile Char.isDigit = [] ∧ rest.dropWhile Char.isDigit = rest := by
    cases rest with
    | nil => exact ⟨rfl, rfl⟩
    | cons c later =>
        have other : ¬c.isDigit = true := fun digit => ends c later rfl (.inl digit)
        exact ⟨List.takeWhile_cons_of_neg other, List.dropWhile_cons_of_neg other⟩
  rw [readDigits, List.takeWhile_append_of_pos decimal, List.dropWhile_append_of_pos decimal,
    stop.1, stop.2, List.append_nil]
  split
  · contradiction
  · rfl

theorem readWhole_digits (n : Nat) {rest : List Char} (ends : Ends NumberLater rest) :
    readWhole (Nat.toDigits 10 n ++ rest) = some (Nat.toDigits 10 n, rest) := by
  have decimal : ∀ d ∈ Nat.toDigits 10 n, d.isDigit = true := fun d member =>
    Nat.isDigit_of_mem_toDigits (by decide) (by decide) member
  have digits := readDigits_append Nat.toDigits_ne_nil decimal ends
  by_cases zero : n = 0
  · rw [zero, Nat.toDigits_zero]
    rfl
  · unfold readWhole
    split
    · next later front =>
      obtain ⟨d, ds, shown⟩ := List.exists_cons_of_ne_nil (@Nat.toDigits_ne_nil n 10)
      rw [shown, List.cons_append] at front
      exact absurd (eq_zero_of_toDigits ((List.cons.inj front).1 ▸ shown)) zero
    · exact digits

theorem readNumber_nat (n : Nat) {rest : List Char} (ends : Ends NumberLater rest) :
    readNumber ((toString n).toList ++ rest) = some (nat n, rest) := by
  have fraction : readFraction rest = some ([], rest) := by
    unfold readFraction
    split
    · next later => exact absurd (.inr (.inl rfl)) (ends _ _ rfl)
    · rfl
  have exponent : readExponent rest = some ([], rest) := by
    cases rest with
    | nil => rfl
    | cons c later =>
        have other : ¬(c = 'e' ∨ c = 'E') := fun mark => ends c later rfl (.inr (.inr mark))
        simp [readExponent, not_or.1 other]
  rw [Nat.toString_eq_ofList_toDigits, String.toList_ofList]
  obtain ⟨d, ds, shown⟩ := List.exists_cons_of_ne_nil (@Nat.toDigits_ne_nil n 10)
  have digit : d.isDigit = true :=
    Nat.isDigit_of_mem_toDigits (by decide) (by decide) (shown ▸ List.mem_cons_self)
  have whole := readWhole_digits n ends
  have unsigned : ∀ later, Nat.toDigits 10 n ++ rest ≠ '-' :: later := by
    intro later front
    rw [shown, List.cons_append] at front
    rw [(List.cons.inj front).1] at digit
    exact absurd digit (by decide)
  unfold readNumber
  split
  next sign cs split =>
  split at split
  · next later front => exact absurd front (unsigned later)
  · cases split
    simp [whole, fraction, exponent, nat, Nat.repr_eq_ofList_toDigits]

/-! ## Lists between brackets -/

section Lists

variable {α : Type} {close : Char} {item : List Char → Option (α × List Char)}
  {print : α → String}

/-- The reader of an item passes over white space and reads printed items back, none of which could
be taken for the closing bracket. -/
structure ReadsBack (close : Char) (item : List Char → Option (α × List Char))
    (print : α → String) (as : List α) : Prop where
  skips : ∀ white, Blank white → ∀ cs, item (white ++ cs) = item cs
  front : ∀ a ∈ as, ∃ c cs, (print a).toList = c :: cs ∧ ¬Space c ∧ c ≠ close
  reads : ∀ a ∈ as, ∀ rest, Ends NumberLater rest →
    item ((print a).toList ++ rest) = some (a, rest)

theorem ReadsBack.tail {a : α} {as : List α} (back : ReadsBack close item print (a :: as)) :
    ReadsBack close item print as where
  skips := back.skips
  front b member := back.front b (List.mem_cons_of_mem a member)
  reads b member := back.reads b (List.mem_cons_of_mem a member)

/-- Items behind the first, as they are printed. -/
def printedItems (print : α → String) (gap : List Char) (as : List α) : List Char :=
  as.flatMap fun b => ',' :: (gap ++ (print b).toList)

/-- Items are read back up to the closing bracket, each but the first behind a comma. -/
theorem readItems_printed {a : α} {as : List α} (back : ReadsBack close item print (a :: as))
    (other : ',' ≠ close) (solid : ¬Space close) {lead gap last rest : List Char}
    (led : Blank lead) (gapped : Blank gap) (ended : Blank last)
    (stop : Ends NumberLater (last ++ close :: rest)) :
    readItems close item
        (lead ++ ((print a).toList ++ (printedItems print gap as ++ (last ++ close :: rest)))) =
      some (a :: as, rest) := by
  induction as generalizing a lead with
  | nil =>
      rw [readItems, back.skips _ led, printedItems, List.flatMap_nil, List.nil_append,
        back.reads a List.mem_cons_self _ stop]
      simp only [dropSpace_append ended, dropSpace_cons solid, beq_self_eq_true, if_true]
  | cons b as ih =>
      have later := ih back.tail gapped
      have text : printedItems print gap (b :: as) ++ (last ++ close :: rest) =
          ',' :: (gap ++ ((print b).toList ++ (printedItems print gap as ++
            (last ++ close :: rest)))) := by
        simp only [printedItems, List.flatMap_cons, List.cons_append, List.append_assoc]
      have shorter (front behind : List Char) :
          behind.length < (lead ++ (front ++ ',' :: behind)).length := by
        simp only [List.length_append, List.length_cons]
        omega
      rw [readItems, back.skips _ led, text,
        back.reads a List.mem_cons_self _ (.cons (by decide) _)]
      simp only [dropSpace_cons (show ¬Space ',' by decide), beq_iff_eq, if_neg other, if_true,
        shorter, dite_true, later, Option.map_some]

theorem enclose_eq (left right indent : String) (parts : List String) :
    enclose left right indent parts = left ++ enclose "" right indent parts := by
  cases parts with
  | nil => simp [enclose]
  | cons part later => simp [enclose, String.append_assoc]

theorem toList_enclose_cons (right indent : String) (a : α) (as : List α) :
    (enclose "" right indent ((a :: as).map print)).toList =
      '\n' :: (indent ++ "  ").toList ++ ((print a).toList ++
        (printedItems print ('\n' :: (indent ++ "  ").toList) as ++
          ('\n' :: indent.toList ++ right.toList))) := by
  have comma : (",\n" ++ (indent ++ "  ")).toList = ',' :: '\n' :: (indent ++ "  ").toList := by
    rw [String.toList_append]
    rfl
  simp only [enclose, List.map_cons, String.toList_append, toList_intercalate_cons, comma,
    printedItems, List.flatMap_map]
  simp

/-- What is printed behind the opening bracket of a container is read back. -/
theorem readList_enclosed {as : List α} (back : ReadsBack close item print as)
    (other : ',' ≠ close) (solid : ¬Space close) {right indent : String}
    (closing : right.toList = [close]) (blank : Blank indent.toList) (rest : List Char) :
    readList close item ((enclose "" right indent (as.map print)).toList ++ rest) =
      some (as, rest) := by
  cases as with
  | nil =>
      have text : (enclose "" right indent []).toList ++ rest = close :: rest := by
        simp [enclose, closing]
      rw [List.map_nil, text, readList, dropSpace_cons solid]
      simp only [beq_self_eq_true, if_true]
  | cons a as =>
      have ended : Blank ('\n' :: indent.toList) := blank.cons (by decide)
      have gapped : Blank ('\n' :: (indent ++ "  ").toList) := blank.deeper.cons (by decide)
      have read := readItems_printed back other solid blank_nil gapped ended
        (show Ends NumberLater ('\n' :: indent.toList ++ close :: rest) from .cons (by decide) _)
      obtain ⟨c, cs, front, visible, opening⟩ := back.front a List.mem_cons_self
      rw [List.nil_append, front, List.cons_append] at read
      rw [toList_enclose_cons, closing, List.append_assoc, readList, dropSpace_append gapped, front,
        List.append_assoc, List.cons_append, dropSpace_cons visible]
      simp only [beq_iff_eq, if_neg opening, List.append_assoc, List.singleton_append]
      exact read

end Lists

/-! ## Documents -/

/-- A document is nested at most so deep, and its numbers are counts. -/
inductive Within : Nat → Json → Prop
  | null (depth : Nat) : Within depth null
  | bool (depth : Nat) (b : Bool) : Within depth (bool b)
  | nat (depth n : Nat) : Within depth (nat n)
  | string (depth : Nat) (s : String) : Within depth (string s)
  | array {depth : Nat} {items : List Json} (each : ∀ j ∈ items, Within depth j) :
      Within (depth + 1) (array items)
  | object {depth : Nat} {fields : List (String × Json)}
      (each : ∀ f ∈ fields, Within depth f.2) : Within (depth + 1) (object fields)

attribute [simp] Within.null Within.bool Within.nat Within.string

@[simp] theorem within_array {depth : Nat} {items : List Json} :
    Within (depth + 1) (array items) ↔ ∀ j ∈ items, Within depth j :=
  ⟨fun | .array each => each, .array⟩

@[simp] theorem within_object {depth : Nat} {fields : List (String × Json)} :
    Within (depth + 1) (object fields) ↔ ∀ f ∈ fields, Within depth f.2 :=
  ⟨fun | .object each => each, .object⟩

theorem prettyItems_eq (indent : String) (items : List Json) :
    prettyItems indent items = items.map (prettyAt indent) := by
  induction items with
  | nil => rfl
  | cons j later ih => rw [prettyItems, ih, List.map_cons]

/-- A field as it is printed. -/
def printedField (indent : String) (f : String × Json) : String :=
  quote f.1 ++ ": " ++ prettyAt indent f.2

theorem toList_printedField (indent : String) (f : String × Json) :
    (printedField indent f).toList = '"' :: (f.1.toList.flatMap escapeChar ++
      '"' :: ':' :: ' ' :: (prettyAt indent f.2).toList) := by
  simp [printedField, toList_quote]

theorem prettyFields_eq (indent : String) (fields : List (String × Json)) :
    prettyFields indent fields = fields.map (printedField indent) := by
  induction fields with
  | nil => rfl
  | cons f later ih => rw [prettyFields, ih, List.map_cons, printedField]

theorem readValue_skips {white : List Char} (blank : Blank white) (depth : Nat) (cs : List Char) :
    readValue depth (white ++ cs) = readValue depth cs := by
  rw [readValue, readValue, dropSpace_append blank]

theorem readField_skips {white : List Char} (blank : Blank white)
    (value : List Char → Option (Json × List Char)) (cs : List Char) :
    readField value (white ++ cs) = readField value cs := by
  rw [readField, readField, dropSpace_append blank]

theorem toList_prettyAt_array (indent : String) (items : List Json) :
    (prettyAt indent (array items)).toList =
      '[' :: (enclose "" "]" indent (items.map (prettyAt (indent ++ "  ")))).toList := by
  rw [prettyAt, prettyItems_eq, enclose_eq, String.toList_append]
  rfl

theorem toList_prettyAt_object (indent : String) (fields : List (String × Json)) :
    (prettyAt indent (object fields)).toList =
      '\x7b' :: (enclose "" "\x7d" indent
        (fields.map (printedField (indent ++ "  ")))).toList := by
  rw [prettyAt, prettyFields_eq, enclose_eq, String.toList_append]
  rfl

/-- A count starts with a digit. -/
theorem exists_digit (indent : String) (n : Nat) :
    ∃ d ds, (prettyAt indent (nat n)).toList = d :: ds ∧ d.isDigit = true := by
  obtain ⟨d, ds, shown⟩ := List.exists_cons_of_ne_nil (@Nat.toDigits_ne_nil n 10)
  refine ⟨d, ds, ?_, ?_⟩
  · rw [nat, prettyAt, Nat.toString_eq_ofList_toDigits, String.toList_ofList, shown]
  · exact Nat.isDigit_of_mem_toDigits (by decide) (by decide) (shown ▸ List.mem_cons_self)

theorem not_space_of_digit {d : Char} (digit : d.isDigit = true) : ¬Space d := by
  rintro (rfl | rfl | rfl | rfl) <;> exact absurd digit (by decide)

/-- No document starts with white space or a closing bracket. -/
theorem Within.front {depth : Nat} {j : Json} (within : Within depth j) (indent : String) :
    ∃ c cs, (prettyAt indent j).toList = c :: cs ∧ ¬Space c ∧ c ≠ ']' := by
  cases within with
  | null => exact ⟨'n', ['u', 'l', 'l'], by simp [prettyAt], by decide, by decide⟩
  | bool depth b =>
      cases b
      · exact ⟨'f', ['a', 'l', 's', 'e'], by simp [prettyAt], by decide, by decide⟩
      · exact ⟨'t', ['r', 'u', 'e'], by simp [prettyAt], by decide, by decide⟩
  | nat depth n =>
      obtain ⟨d, ds, text, digit⟩ := exists_digit indent n
      refine ⟨d, ds, text, not_space_of_digit digit, ?_⟩
      rintro rfl
      exact absurd digit (by decide)
  | string depth s => exact ⟨'"', _, by rw [prettyAt, toList_quote], by decide, by decide⟩
  | array each => exact ⟨'[', _, toList_prettyAt_array _ _, by decide, by decide⟩
  | object each => exact ⟨'\x7b', _, toList_prettyAt_object _ _, by decide, by decide⟩

theorem readField_printed {value : List Char → Option (Json × List Char)} {indent name : String}
    {j : Json} {rest : List Char}
    (skips : ∀ white, Blank white → ∀ cs, value (white ++ cs) = value cs)
    (read : value ((prettyAt indent j).toList ++ rest) = some (j, rest)) :
    readField value ((printedField indent (name, j)).toList ++ rest) = some ((name, j), rest) := by
  have behind : value (' ' :: ((prettyAt indent j).toList ++ rest)) = some (j, rest) :=
    (skips [' '] (blank_nil.cons (by decide)) _).trans read
  rw [toList_printedField, List.cons_append, readField, dropSpace_cons (by decide)]
  simp [readString_quoted, dropSpace_cons (show ¬Space ':' by decide), behind]

theorem readValue_digit {d : Char} (digit : d.isDigit = true) (depth : Nat) (cs : List Char) :
    readValue depth (d :: cs) = readNumber (d :: cs) := by
  rw [readValue, dropSpace_cons (not_space_of_digit digit)]
  split
  case h_8 => rfl
  all_goals simp_all [Char.isDigit]

/-- A document is read back with any text behind it that cannot extend a number. -/
theorem readValue_prettyAt {depth : Nat} {j : Json} (within : Within depth j) {indent : String}
    (blank : Blank indent.toList) {rest : List Char} (ends : Ends NumberLater rest) :
    readValue depth ((prettyAt indent j).toList ++ rest) = some (j, rest) := by
  induction within generalizing indent rest with
  | null depth => simp [prettyAt, readValue, dropSpace_cons (show ¬Space 'n' by decide), readWord]
  | bool depth b =>
      cases b
      · simp [prettyAt, readValue, dropSpace_cons (show ¬Space 'f' by decide), readWord]
      · simp [prettyAt, readValue, dropSpace_cons (show ¬Space 't' by decide), readWord]
  | nat depth n =>
      obtain ⟨d, ds, text, digit⟩ := exists_digit indent n
      have number := readNumber_nat n ends
      rw [show (toString n).toList = d :: ds by rw [← text, nat, prettyAt]] at number
      rw [text, List.cons_append, readValue_digit digit]
      exact number
  | string depth s =>
      rw [prettyAt, toList_quote, List.cons_append, readValue, dropSpace_cons (by decide)]
      simp [readString_quoted]
  | @array depth items each ih =>
      have back : ReadsBack ']' (readValue depth) (prettyAt (indent ++ "  ")) items :=
        { skips := fun white blank cs => readValue_skips blank depth cs
          front := fun j member => (each j member).front _
          reads := fun j member rest ends => ih j member blank.deeper ends }
      have read := readList_enclosed back (by decide) (by decide) (show "]".toList = _ from rfl)
        blank rest
      rw [toList_prettyAt_array, List.cons_append, readValue, dropSpace_cons (by decide)]
      simp [read]
  | @object depth fields each ih =>
      have back : ReadsBack '\x7d' (readField (readValue depth)) (printedField (indent ++ "  "))
          fields :=
        { skips := fun white blank cs => readField_skips blank _ cs
          front := fun f member => ⟨'"', _, toList_printedField _ f, by decide, by decide⟩
          reads := fun f member rest ends => readField_printed
            (fun white blank cs => readValue_skips blank depth cs)
            (ih f member blank.deeper ends) }
      have read := readList_enclosed back (by decide) (by decide) (show "\x7d".toList = _ from rfl)
        blank rest
      rw [toList_prettyAt_object, List.cons_append, readValue, dropSpace_cons (by decide)]
      simp [read]

/-- **Printed documents are read back**, also with white space behind them. -/
theorem parse?_pretty {j : Json} (within : Within maxDepth j) {white : String}
    (blank : Blank white.toList) : parse? (j.pretty ++ white) = some j := by
  have ends : Ends NumberLater white.toList := by
    intro c later front number
    have space : Space c := blank c (front ▸ List.mem_cons_self)
    rcases space with rfl | rfl | rfl | rfl <;> exact absurd number (by decide)
  have all : dropSpace white.toList = [] := by
    have dropped := dropSpace_append blank []
    rwa [List.append_nil] at dropped
  have read := readValue_prettyAt within (show Blank "".toList from blank_nil) ends
  rw [parse?, String.toList_append, pretty, read]
  simp [all]

/-! ## Documents in order -/

theorem sortedItems_eq (items : List Json) : sortedItems items = items.map sorted := by
  induction items with
  | nil => rfl
  | cons j later ih => rw [sortedItems, ih, List.map_cons]

theorem mem_insertField {name : String} {value : Json} {fields : List (String × Json)}
    {f : String × Json} :
    f ∈ insertField name value fields ↔ f = (name, value) ∨ f ∈ fields := by
  induction fields with
  | nil => simp [insertField]
  | cons g later ih =>
      obtain ⟨n, v⟩ := g
      rw [insertField]
      split
      · rw [List.mem_cons]
      · rw [List.mem_cons, ih, List.mem_cons, or_left_comm]

theorem mem_sortedFields {fields : List (String × Json)} {f : String × Json} :
    f ∈ sortedFields fields ↔ ∃ g ∈ fields, f = (g.1, g.2.sorted) := by
  induction fields with
  | nil => simp [sortedFields]
  | cons g later ih =>
      rw [sortedFields, mem_insertField, ih, List.exists_mem_cons_iff]

theorem lookup_cons_eq (f : String × Json) (later : List (String × Json)) (name : String) :
    (f :: later).lookup name = if name = f.1 then some f.2 else later.lookup name := by
  obtain ⟨n, v⟩ := f
  by_cases same : name = n
  · simp [same]
  · simp [List.lookup_cons, beq_false_of_ne same, same]

theorem lookup_insertField {name : String} {value : Json} {fields : List (String × Json)}
    (fresh : ∀ f ∈ fields, f.1 ≠ name) (other : String) :
    (insertField name value fields).lookup other =
      if other = name then some value else fields.lookup other := by
  induction fields with
  | nil => rw [insertField, lookup_cons_eq]
  | cons f later ih =>
      obtain ⟨n, v⟩ := f
      obtain ⟨different, fresh⟩ := List.forall_mem_cons.1 fresh
      rw [insertField]
      split
      · rw [lookup_cons_eq]
      · rw [lookup_cons_eq, ih fresh, lookup_cons_eq]
        by_cases first : other = n
        · have second : other ≠ name := first ▸ different
          rw [if_pos first, if_neg second, if_pos first]
        · rw [if_neg first, if_neg first]

/-- The value of a field. -/
def field? (name : String) : Json → Option Json
  | object fields => fields.lookup name
  | _ => none

/-- Fields keep their values when they are put in order, if none is repeated. -/
theorem field?_sorted {fields : List (String × Json)} (distinct : (fields.map Prod.fst).Nodup)
    (name : String) : (object fields).sorted.field? name = (fields.lookup name).map sorted := by
  rw [sorted, field?]
  induction fields with
  | nil => rfl
  | cons f later ih =>
      obtain ⟨n, v⟩ := f
      rw [List.map_cons, List.nodup_cons] at distinct
      have fresh : ∀ g ∈ sortedFields later, g.1 ≠ n := by
        intro g member same
        obtain ⟨given, known, rfl⟩ := mem_sortedFields.1 member
        exact distinct.1 (List.mem_map.2 ⟨given, known, same⟩)
      rw [sortedFields, lookup_insertField fresh, ih distinct.2, lookup_cons_eq, apply_ite
        (Option.map sorted), Option.map_some]

/-- Putting fields in order changes neither depth nor numbers. -/
theorem Within.sorted {depth : Nat} {j : Json} (within : Within depth j) :
    Within depth j.sorted := by
  induction within with
  | null depth => exact .null depth
  | bool depth b => exact .bool depth b
  | nat depth n => exact .nat depth n
  | string depth s => exact .string depth s
  | array each ih =>
      rw [Json.sorted, sortedItems_eq]
      refine .array fun j member => ?_
      obtain ⟨i, given, rfl⟩ := List.mem_map.1 member
      exact ih i given
  | object each ih =>
      rw [Json.sorted]
      refine .object fun f member => ?_
      obtain ⟨g, given, rfl⟩ := mem_sortedFields.1 member
      exact ih g given

end DumpRules.Json
