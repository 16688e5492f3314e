import Orchestration.Document.Json
import Orchestration.Proofs.Printing

/-!
# Values as documents

The compact text of a value is read as a document that mirrors it, part by part: the text falls into the
tokens of the value whatever follows it, and the tokens make up the document.
-/

namespace Orchestration

/-- That JSON can spell a value: its numbers are stored ones. -/
inductive Value.IsSpelled : Value → Prop where
  | null : IsSpelled .null
  | boolean (value : Bool) : IsSpelled (.boolean value)
  | number {held : Number} (stored : held.IsStored) : IsSpelled (.number held)
  | text (written : String) : IsSpelled (.text written)
  | list {items : List Value} (each : ∀ item ∈ items, IsSpelled item) : IsSpelled (.list items)
  | record {entries : List (String × Value)} (each : ∀ entry ∈ entries, IsSpelled entry.2) :
      IsSpelled (.record entries)

mutual

/-- The document that mirrors a value. -/
def Value.document : Value → Document
  | .null => .scalar .null
  | .boolean value => .scalar (.boolean value)
  | .number held => .scalar (.number (some held))
  | .text written => .scalar (.text (some written))
  | .list items => .sequence (Value.documents items)
  | .record entries => .mapping (Value.documentEntries entries)

def Value.documents : List Value → List Document
  | [] => []
  | item :: items => Value.document item :: Value.documents items

def Value.documentEntries : List (String × Value) → List (Option String × Document)
  | [] => []
  | (key, value) :: entries => (some key, Value.document value) :: Value.documentEntries entries

end

namespace Json

mutual

/-- The tokens of a value's compact form. -/
def tokensOf : Value → List Token
  | .null => [.scalar .null]
  | .boolean value => [.scalar (.boolean value)]
  | .number held => [.scalar (.number (some held))]
  | .text written => [.scalar (.text (some written))]
  | .list [] => [.openList, .closeList]
  | .list (item :: items) => .openList :: (tokensOf item ++ tokensOfItems items)
  | .record [] => [.openRecord, .closeRecord]
  | .record ((key, value) :: entries) =>
      .openRecord :: .scalar (.text (some key)) :: .colon :: (tokensOf value ++ tokensOfEntries entries)

def tokensOfItems : List Value → List Token
  | [] => [.closeList]
  | item :: items => .comma :: (tokensOf item ++ tokensOfItems items)

def tokensOfEntries : List (String × Value) → List Token
  | [] => [.closeRecord]
  | (key, value) :: entries =>
      .comma :: .scalar (.text (some key)) :: .colon :: (tokensOf value ++ tokensOfEntries entries)

end

/-! ## Texts -/

section Texts

variable {rest : List Char}

/-- An escape of two characters stands for one. -/
theorem textParts?_short {letter meant : Char} (escape : escaped? letter = some meant) (rest : List Char) :
    textParts? ('\\' :: letter :: rest) =
      (textParts? rest).map fun (parts, after) => (.character meant :: parts, after) := by
  have notUnit : letter ≠ 'u' := by
    rintro rfl
    cases escape
  rw [textParts?]
  · rw [escape]
    cases textParts? rest <;> rfl
  · rintro a b c d others rfl
    exact absurd rfl notUnit

/-- A character that needs no escape stands for itself. -/
theorem textParts?_plain {character : Char} (notQuote : character ≠ '"') (notBackslash : character ≠ '\\')
    (printable : ¬ character.toNat < 0x20) (rest : List Char) :
    textParts? (character :: rest) =
      (textParts? rest).map fun (parts, after) => (.character character :: parts, after) := by
  rw [textParts?]
  · rw [if_neg printable]
  all_goals simp_all

/-- The digits of a control character are those of its number. -/
theorem readHexadecimal?_control (code : Nat) (control : code < 0x20) :
    Text.readHexadecimal? ['0', '0', Nat.digitChar (code / 16), Nat.digitChar (code % 16)] = some code := by
  interval_cases code <;> rfl

/-- A control character is written with four hexadecimal digits and read as that unit. -/
theorem textParts?_control {character : Char} (control : character.toNat < 0x20) (rest : List Char) :
    textParts? ('\\' :: 'u' :: '0' :: '0' :: Nat.digitChar (character.toNat / 16) ::
        Nat.digitChar (character.toNat % 16) :: rest) =
      (textParts? rest).map fun (parts, after) => (.unit character.toNat :: parts, after) := by
  rw [textParts?, readHexadecimal?_control _ control]
  cases textParts? rest <;> rfl

/-- An escaped character is read as one part, which stands for the character. -/
theorem exists_part (character : Char) :
    ∃ part : TextPart,
      (∀ parts, characters? (part :: parts) = (characters? parts).map (character :: ·)) ∧
      ∀ rest, textParts? (escapeCharacter character ++ rest) =
        (textParts? rest).map fun (parts, after) => (part :: parts, after) := by
  unfold escapeCharacter
  split_ifs with quote backslash backspace feed line carriage tab control
  · subst quote
    exact ⟨.character '"', fun _ => rfl, textParts?_short rfl⟩
  · subst backslash
    exact ⟨.character '\\', fun _ => rfl, textParts?_short rfl⟩
  · subst backspace
    exact ⟨.character '\x08', fun _ => rfl, textParts?_short rfl⟩
  · subst feed
    exact ⟨.character '\x0c', fun _ => rfl, textParts?_short rfl⟩
  · subst line
    exact ⟨.character '\n', fun _ => rfl, textParts?_short rfl⟩
  · subst carriage
    exact ⟨.character '\r', fun _ => rfl, textParts?_short rfl⟩
  · subst tab
    exact ⟨.character '\t', fun _ => rfl, textParts?_short rfl⟩
  · refine ⟨.unit character.toNat, fun parts => ?_, textParts?_control control⟩
    have noHigh : ¬ (0xD800 ≤ character.toNat ∧ character.toNat < 0xDC00) := by omega
    have noLow : ¬ (0xDC00 ≤ character.toNat ∧ character.toNat < 0xE000) := by omega
    rcases parts with _ | ⟨_ | _, others⟩ <;>
      simp only [characters?, noHigh, noLow, if_false, Char.ofNat_toNat]
  · exact ⟨.character character, fun _ => rfl, textParts?_plain quote backslash control⟩

/-- The parts of an escaped text, up to its closing quote. -/
theorem exists_parts (text rest : List Char) :
    ∃ parts, characters? parts = some text ∧
      textParts? (text.flatMap escapeCharacter ++ '"' :: rest) = some (parts, rest) := by
  induction text with
  | nil => exact ⟨[], rfl, rfl⟩
  | cons character text inductionHypothesis =>
      obtain ⟨parts, stand, read⟩ := inductionHypothesis
      obtain ⟨part, stands, reads⟩ := exists_part character
      refine ⟨part :: parts, by rw [stands, stand]; rfl, ?_⟩
      rw [List.flatMap_cons, List.append_assoc, reads, read]
      rfl

/-- What follows a text is shorter than what was read. -/
theorem length_of_textParts? {text after : List Char} {parts : List TextPart}
    (read : textParts? text = some (parts, after)) : after.length < text.length := by
  fun_induction textParts? text generalizing parts after with
  | case1 => cases read
  | case2 rest =>
      cases read
      exact Nat.lt_succ_self _
  | case3 a b c d rest code found inner inside reading inductionHypothesis =>
      cases read
      have shorter := inductionHypothesis inside
      simp only [List.length_cons]
      omega
  | case4 => cases read
  | case5 letter rest _ meant found inner inside reading inductionHypothesis =>
      cases read
      have shorter := inductionHypothesis inside
      simp only [List.length_cons]
      omega
  | case6 => cases read
  | case7 => cases read
  | case8 character rest _ _ _ _ inductionHypothesis =>
      obtain ⟨⟨found, inner⟩, inside, same⟩ := Option.map_eq_some_iff.mp read
      cases same
      exact Nat.lt_succ_of_lt (inductionHypothesis inside)

end Texts

/-! ## Tokens -/

section Tokens

variable {text rest : List Char}

/-- A number begins with characters of numbers. -/
theorem isNumberCharacter_of_starts {character : Char} (starts : (character = '-' || character.isDigit) = true) :
    isNumberCharacter character = true := by
  rcases Bool.or_eq_true_iff.mp starts with minus | digit
  · rw [of_decide_eq_true minus]
    rfl
  · simp [isNumberCharacter, digit]

/-- A token takes at least the character that it begins with. -/
theorem length_dropWhile_cons_le {character : Char} {test : Char → Bool} (holds : test character = true)
    (rest : List Char) : ((character :: rest).dropWhile test).length ≤ rest.length := by
  rw [List.dropWhile_cons_of_pos holds]
  exact List.length_dropWhile_le test rest

/-- Every bound that is long enough for a text gives the same tokens. -/
theorem tokensWithin_congr {size first second : Nat} (small : text.length ≤ size)
    (firstEnough : text.length ≤ first) (secondEnough : text.length ≤ second) :
    tokensWithin first text = tokensWithin second text := by
  induction size generalizing first second text with
  | zero =>
      rw [List.length_eq_zero_iff.mp (Nat.le_zero.mp small)]
      simp [tokensWithin]
  | succ size inductionHypothesis =>
      cases text with
      | nil => simp [tokensWithin]
      | cons character rest =>
          simp only [List.length_cons] at small firstEnough secondEnough
          obtain ⟨first, rfl⟩ : ∃ fewer, first = fewer + 1 := ⟨first - 1, by omega⟩
          obtain ⟨second, rfl⟩ : ∃ fewer, second = fewer + 1 := ⟨second - 1, by omega⟩
          have further : ∀ {after : List Char}, after.length ≤ rest.length →
              tokensWithin first after = tokensWithin second after := fun shorter =>
            inductionHypothesis (by omega) (by omega) (by omega)
          rw [tokensWithin, tokensWithin, further le_rfl]
          split_ifs with blank quote number word
          · rfl
          · cases read : textParts? rest with
            | none => rfl
            | some found =>
                dsimp only
                rw [further (length_of_textParts? read).le]
          · rw [further (length_dropWhile_cons_le (isNumberCharacter_of_starts number) rest)]
          · rw [further (length_dropWhile_cons_le word rest)]
          · rfl

/-- Any bound that counts the characters of a text gives all of its tokens. -/
theorem tokensWithin_eq {bound : Nat} (enough : text.length ≤ bound) :
    tokensWithin bound text = tokens? text :=
  tokensWithin_congr (Nat.le_refl _) enough (Nat.le_refl _)

/-- A blank is passed over. Any other character begins a token, and the tokens of what follows it come next. -/
theorem tokens?_cons (character : Char) (rest : List Char) :
    tokens? (character :: rest) =
      if isBlank character then tokens? rest
      else if character = '"' then
        (textParts? rest).bind fun read => (tokens? read.2).map
          (.scalar (.text ((characters? read.1).map String.ofList)) :: ·)
      else if character = '-' || character.isDigit then
        (number? ((character :: rest).takeWhile isNumberCharacter)).bind fun number =>
          (tokens? ((character :: rest).dropWhile isNumberCharacter)).map (.scalar (.number number) :: ·)
      else if character.isAlpha then
        (word? ((character :: rest).takeWhile Char.isAlpha)).bind fun scalar =>
          (tokens? ((character :: rest).dropWhile Char.isAlpha)).map (.scalar scalar :: ·)
      else (sign? character).bind fun token => (tokens? rest).map (token :: ·) := by
  rw [tokens?, List.length_cons, tokensWithin]
  split_ifs with blank quote number word
  · rfl
  · cases read : textParts? rest with
    | none => rfl
    | some found => simp only [Option.bind_some, tokensWithin_eq (length_of_textParts? read).le]
  · rw [tokensWithin_eq (length_dropWhile_cons_le (isNumberCharacter_of_starts number) rest)]
    cases number? ((character :: rest).takeWhile isNumberCharacter) <;> rfl
  · rw [tokensWithin_eq (length_dropWhile_cons_le word rest)]
    cases word? ((character :: rest).takeWhile Char.isAlpha) <;> rfl
  · cases sign? character <;> rfl

/-- A sign is a token by itself. -/
theorem tokens?_sign {character : Char} {token : Token} (isSign : sign? character = some token) :
    tokens? (character :: rest) = (tokens? rest).map (token :: ·) := by
  have plain : isBlank character = false ∧ character ≠ '"' ∧
      (character = '-' || character.isDigit) = false ∧ character.isAlpha = false := by
    unfold sign? at isSign
    split at isSign <;> cases isSign <;> decide
  obtain ⟨noBlank, noQuote, noNumber, noWord⟩ := plain
  simp only [tokens?_cons, noBlank, noQuote, noNumber, noWord, isSign, Bool.false_eq_true, if_false,
    Option.bind_some]

/-- A quoted text is one token, whatever follows it. -/
theorem tokens?_quoted (written : String) :
    tokens? (quoted written ++ rest) = (tokens? rest).map (.scalar (.text (some written)) :: ·) := by
  obtain ⟨parts, stand, read⟩ := exists_parts written.toList rest
  have unquoted : quoted written ++ rest =
      '"' :: (written.toList.flatMap escapeCharacter ++ '"' :: rest) := by simp [quoted]
  rw [unquoted, tokens?_cons]
  simp only [show isBlank '"' = false by decide, Bool.false_eq_true, if_false, if_true, read, stand,
    Option.bind_some, Option.map_some, String.ofList_toList]

/-- That no number and no word goes on at the front of a text. -/
def EndsScalar (text : List Char) : Prop :=
  ∀ character ∈ text.head?, isNumberCharacter character = false ∧ character.isAlpha = false

/-- A word is one token where it ends. -/
theorem tokens?_word {first : Char} {word : List Char} {scalar : Scalar}
    (letters : (first :: word).all Char.isAlpha = true)
    (plain : isBlank first = false ∧ first ≠ '"' ∧ (first = '-' || first.isDigit) = false)
    (means : word? (first :: word) = some scalar) (ends : EndsScalar rest) :
    tokens? (first :: word ++ rest) = (tokens? rest).map (.scalar scalar :: ·) := by
  obtain ⟨taken, dropped⟩ := Text.span_append letters fun character front => (ends character front).2
  obtain ⟨noBlank, noQuote, noNumber⟩ := plain
  have letter : first.isAlpha = true := List.all_eq_true.mp letters first List.mem_cons_self
  rw [List.cons_append] at taken dropped ⊢
  rw [tokens?_cons]
  simp only [noBlank, noQuote, noNumber, letter, Bool.false_eq_true, if_false, if_true, taken, dropped, means,
    Option.bind_some]

/-- A numeral is one token where it ends. -/
theorem tokens?_numeral {first : Char} {digits : List Char} {number : Option Number}
    (all : (first :: digits).all isNumberCharacter = true) (starts : (first = '-' || first.isDigit) = true)
    (means : number? (first :: digits) = some number) (ends : EndsScalar rest) :
    tokens? (first :: digits ++ rest) = (tokens? rest).map (.scalar (.number number) :: ·) := by
  obtain ⟨taken, dropped⟩ := Text.span_append all fun character front => (ends character front).1
  have plain : isBlank first = false ∧ first ≠ '"' := by
    rcases Bool.or_eq_true_iff.mp starts with minus | digit
    · rw [of_decide_eq_true minus]
      decide
    · constructor
      · refine Bool.eq_false_iff.mpr fun blank => ?_
        simp only [isBlank, Bool.or_eq_true, decide_eq_true_eq] at blank
        rcases blank with ((rfl | rfl) | rfl) | rfl <;> cases digit
      · rintro rfl
        cases digit
  obtain ⟨noBlank, noQuote⟩ := plain
  rw [List.cons_append] at taken dropped ⊢
  rw [tokens?_cons]
  simp only [noBlank, noQuote, starts, Bool.false_eq_true, if_false, if_true, taken, dropped, means,
    Option.bind_some]

/-- Digits are characters of numbers. -/
theorem isNumberCharacter_of_digits {digits : List Char} (all : digits.all Char.isDigit = true) :
    digits.all isNumberCharacter = true :=
  List.all_eq_true.mpr fun character within => by
    simp [isNumberCharacter, List.all_eq_true.mp all character within]

/-- The text of a double without its sign is a run of the characters of numbers, which begins with a digit. -/
theorem exists_partsOf {mantissa : Nat} {exponent : Int}
    (isNumeral : (Binary64.partsOf mantissa exponent).IsNumeral) :
    ∃ first digits, (Binary64.partsOf mantissa exponent).text = first :: digits ∧ first.isDigit = true ∧
      (first :: digits).all isNumberCharacter = true := by
  obtain ⟨nonempty, whole⟩ := Binary64.Parts.all_of_isWholePart isNumeral.whole
  have point : isNumberCharacter '.' = true := rfl
  have mark : (Binary64.partsOf mantissa exponent).mark.all isNumberCharacter = true := by
    rcases Binary64.mark_partsOf mantissa exponent with none | ⟨sign, digits, signs, all, mark⟩
    · rw [none]
      rfl
    · rw [mark, List.all_cons, List.all_cons, isNumberCharacter_of_digits all]
      rcases signs with rfl | rfl <;> rfl
  have all : (Binary64.partsOf mantissa exponent).text.all isNumberCharacter = true := by
    rw [Binary64.Parts.text, List.all_append, isNumberCharacter_of_digits whole]
    split
    · exact mark
    · rw [List.all_cons, point, List.all_append, isNumberCharacter_of_digits isNumeral.fraction, mark]
      rfl
  obtain ⟨first, rest, cons⟩ := List.exists_cons_of_ne_nil nonempty
  rw [cons] at whole
  refine ⟨first, _, by rw [Binary64.Parts.text, cons, List.cons_append],
    List.all_eq_true.mp whole first List.mem_cons_self, ?_⟩
  rw [Binary64.Parts.text, cons, List.cons_append] at all
  exact all

/-- The text of a number is a run of the characters of numbers, which begins with a sign or a digit. -/
theorem exists_numeral {number : Number} (stored : number.IsStored) :
    ∃ first digits, number.json = first :: digits ∧ (first = '-' || first.isDigit) = true ∧
      (first :: digits).all isNumberCharacter = true := by
  have minus : isNumberCharacter '-' = true := rfl
  have whole : ∀ value : Nat, ∃ first digits, Nat.toDigits 10 value = first :: digits ∧
      first.isDigit = true ∧ (first :: digits).all isNumberCharacter = true := by
    intro value
    obtain ⟨first, digits, cons⟩ := List.exists_cons_of_ne_nil (@Nat.toDigits_ne_nil value 10)
    have all := Binary64.Decimal.all_toDigits value
    rw [cons] at all
    exact ⟨first, digits, cons, List.all_eq_true.mp all first List.mem_cons_self,
      isNumberCharacter_of_digits all⟩
  cases number with
  | integer value =>
      cases value with
      | ofNat value =>
          obtain ⟨first, digits, written, digit, all⟩ := whole value
          exact ⟨first, digits, written, by simp [digit], all⟩
      | negSucc value =>
          obtain ⟨first, digits, written, -, all⟩ := whole (value + 1)
          exact ⟨'-', _, rfl, rfl, by rw [List.all_cons, minus, written, all]; rfl⟩
  | double value =>
      obtain ⟨negative, mantissa, exponent, found⟩ := Binary64.isFinite_iff.mp stored
      have isNumeral := Binary64.isNumeral_partsOf (Binary64.isCanonical_of_content found)
      obtain ⟨first, digits, written, digit, all⟩ := exists_partsOf isNumeral
      have text : (Number.double value).json = _ := Binary64.text_json found
      rw [text]
      cases negative with
      | false => exact ⟨first, digits, written, by simp [digit], all⟩
      | true => exact ⟨'-', _, rfl, rfl, by rw [List.all_cons, minus, written, all]; rfl⟩

/-- A stored number is one token where it ends, and the number itself. -/
theorem tokens?_number {number : Number} (stored : number.IsStored) (ends : EndsScalar rest) :
    tokens? (number.json ++ rest) = (tokens? rest).map (.scalar (.number (some number)) :: ·) := by
  obtain ⟨first, digits, written, starts, all⟩ := exists_numeral stored
  have means := Number.number?_json stored
  rw [written] at means ⊢
  exact tokens?_numeral all starts means ends

/-- That a value's text falls into the value's tokens whatever follows it. -/
def FallsApart (value : Value) : Prop :=
  ∀ {rest}, EndsScalar rest → tokens? (value.json ++ rest) = (tokens? rest).map (tokensOf value ++ ·)

/-- No number goes on where the items of a list end. -/
theorem endsScalar_jsonItems (items : List Value) : EndsScalar (Value.jsonItems items ++ rest) := by
  cases items <;> rintro _ ⟨⟩ <;> exact ⟨rfl, rfl⟩

/-- No number goes on where the entries of a record end. -/
theorem endsScalar_jsonEntries (entries : List (String × Value)) :
    EndsScalar (Value.jsonEntries entries ++ rest) := by
  rcases entries with _ | ⟨⟨key, value⟩, entries⟩ <;> rintro _ ⟨⟩ <;> exact ⟨rfl, rfl⟩

/-- The text of items falls apart where that of each of them does. -/
theorem tokens?_jsonItems {items : List Value} (each : ∀ item ∈ items, FallsApart item) :
    tokens? (Value.jsonItems items ++ rest) = (tokens? rest).map (tokensOfItems items ++ ·) := by
  induction items with
  | nil => exact tokens?_sign rfl
  | cons item items inductionHypothesis =>
      have further := inductionHypothesis fun other within => each other (List.mem_cons_of_mem _ within)
      rw [Value.jsonItems, List.cons_append, List.append_assoc, tokens?_sign rfl,
        each item List.mem_cons_self (endsScalar_jsonItems items), further]
      simp [tokensOfItems, Function.comp_def]

/-- The text of entries falls apart where that of each value does. -/
theorem tokens?_jsonEntries {entries : List (String × Value)} (each : ∀ entry ∈ entries, FallsApart entry.2) :
    tokens? (Value.jsonEntries entries ++ rest) = (tokens? rest).map (tokensOfEntries entries ++ ·) := by
  induction entries with
  | nil => exact tokens?_sign rfl
  | cons entry entries inductionHypothesis =>
      obtain ⟨key, value⟩ := entry
      have further := inductionHypothesis fun other within => each other (List.mem_cons_of_mem _ within)
      rw [Value.jsonEntries, List.cons_append, List.append_assoc, List.cons_append, List.append_assoc,
        tokens?_sign rfl, tokens?_quoted, tokens?_sign rfl,
        each (key, value) List.mem_cons_self (endsScalar_jsonEntries entries), further]
      simp [tokensOfEntries, Function.comp_def]

/-- The text of whatever can be spelled falls into its tokens. -/
theorem fallsApart {value : Value} (spelled : value.IsSpelled) : FallsApart value := by
  induction spelled with
  | null => exact fun ends => tokens?_word rfl (by decide) rfl ends
  | boolean value =>
      intro rest ends
      cases value with
      | true => exact tokens?_word rfl (by decide) rfl ends
      | false => exact tokens?_word rfl (by decide) rfl ends
  | number stored => exact fun ends => tokens?_number stored ends
  | text written => exact fun _ => tokens?_quoted written
  | @list items each inductionHypothesis =>
      intro rest ends
      cases items with
      | nil =>
          rw [Value.json, List.cons_append, List.cons_append, tokens?_sign rfl, tokens?_sign rfl]
          simp [tokensOf, Function.comp_def]
      | cons item items =>
          have further := @tokens?_jsonItems rest items fun other within =>
            inductionHypothesis other (List.mem_cons_of_mem _ within)
          rw [Value.json, List.cons_append, List.append_assoc, tokens?_sign rfl,
            inductionHypothesis item List.mem_cons_self (endsScalar_jsonItems items), further]
          simp [tokensOf, Function.comp_def]
  | @record entries each inductionHypothesis =>
      intro rest ends
      rcases entries with _ | ⟨⟨key, value⟩, entries⟩
      · rw [Value.json, List.cons_append, List.cons_append, tokens?_sign rfl, tokens?_sign rfl]
        simp [tokensOf, Function.comp_def]
      · have further := @tokens?_jsonEntries rest entries fun other within =>
          inductionHypothesis other (List.mem_cons_of_mem _ within)
        rw [Value.json, List.cons_append, List.append_assoc, List.cons_append, List.append_assoc,
          tokens?_sign rfl, tokens?_quoted, tokens?_sign rfl,
          inductionHypothesis (key, value) List.mem_cons_self (endsScalar_jsonEntries entries), further]
        simp [tokensOf, Function.comp_def]

end Tokens

/-! ## Documents -/

section Documents

variable {rest : List Token}

/-- That the tokens of a value make up its document whatever follows them. -/
def MakesUp (value : Value) : Prop :=
  ∀ {bound rest}, (tokensOf value).length ≤ bound →
    documentWithin bound (tokensOf value ++ rest) = some (value.document, rest)

/-- A value begins with no token that ends one. -/
theorem exists_tokensOf (value : Value) :
    ∃ first others, tokensOf value = first :: others ∧ first ≠ .closeList := by
  unfold tokensOf
  split <;> exact ⟨_, _, rfl, by simp⟩

/-- The tokens of items make up their documents where those of each of them do. -/
theorem itemsWithin_tokensOf {item : Value} {items : List Value} {bound : Nat}
    (each : ∀ other ∈ item :: items, MakesUp other)
    (enough : (tokensOf item ++ tokensOfItems items).length ≤ bound) :
    itemsWithin bound (tokensOf item ++ (tokensOfItems items ++ rest)) =
      some (Value.documents (item :: items), rest) := by
  induction items generalizing item bound with
  | nil =>
      simp only [tokensOfItems, List.length_append, List.length_cons, List.length_nil] at enough
      obtain ⟨fewer, rfl⟩ : ∃ fewer, bound = fewer + 1 := ⟨bound - 1, by omega⟩
      rw [itemsWithin, each item List.mem_cons_self (by omega)]
      rfl
  | cons next items inductionHypothesis =>
      simp only [tokensOfItems, List.length_append, List.length_cons] at enough
      obtain ⟨fewer, rfl⟩ : ∃ fewer, bound = fewer + 1 := ⟨bound - 1, by omega⟩
      have further := @inductionHypothesis next fewer
        (fun other within => each other (List.mem_cons_of_mem _ within))
        (by rw [List.length_append]; omega)
      rw [itemsWithin, each item List.mem_cons_self (by omega), tokensOfItems]
      simp only [List.cons_append, List.append_assoc, further, Option.map_some]
      rfl

/-- The tokens of entries make up their documents where those of each value do. -/
theorem entriesWithin_tokensOf {key : String} {value : Value} {entries : List (String × Value)} {bound : Nat}
    (each : ∀ other ∈ (key, value) :: entries, MakesUp other.2)
    (enough : (tokensOf value ++ tokensOfEntries entries).length + 2 ≤ bound) :
    entriesWithin bound
        (.scalar (.text (some key)) :: .colon :: (tokensOf value ++ (tokensOfEntries entries ++ rest))) =
      some (Value.documentEntries ((key, value) :: entries), rest) := by
  induction entries generalizing key value bound with
  | nil =>
      simp only [tokensOfEntries, List.length_append, List.length_cons, List.length_nil] at enough
      obtain ⟨fewer, rfl⟩ : ∃ fewer, bound = fewer + 1 := ⟨bound - 1, by omega⟩
      rw [entriesWithin, each (key, value) List.mem_cons_self (by dsimp only; omega)]
      rfl
  | cons next entries inductionHypothesis =>
      obtain ⟨nextKey, nextValue⟩ := next
      simp only [tokensOfEntries, List.length_append, List.length_cons] at enough
      obtain ⟨fewer, rfl⟩ : ∃ fewer, bound = fewer + 1 := ⟨bound - 1, by omega⟩
      have further := @inductionHypothesis nextKey nextValue fewer
        (fun other within => each other (List.mem_cons_of_mem _ within))
        (by rw [List.length_append]; omega)
      rw [entriesWithin, each (key, value) List.mem_cons_self (by dsimp only; omega), tokensOfEntries]
      simp only [List.cons_append, List.append_assoc, further, Option.map_some]
      rfl

/-- A scalar is a document by itself. -/
theorem documentWithin_scalar {bound : Nat} (content : Scalar) (enough : 1 ≤ bound) :
    documentWithin bound (.scalar content :: rest) = some (.scalar content, rest) := by
  cases bound with
  | zero => omega
  | succ bound => rfl

/-- The tokens of whatever can be spelled make up its document. -/
theorem makesUp {value : Value} (spelled : value.IsSpelled) : MakesUp value := by
  -- A bound on the tokens of the whole leaves one token for the bracket in front of the parts.
  induction spelled with
  | null => exact documentWithin_scalar _
  | boolean value => exact documentWithin_scalar _
  | number stored => exact documentWithin_scalar _
  | text written => exact documentWithin_scalar _
  | @list items each inductionHypothesis =>
      intro bound rest enough
      obtain ⟨fewer, rfl⟩ : ∃ fewer, bound = fewer + 1 := by
        refine ⟨bound - 1, ?_⟩
        cases items <;> simp only [tokensOf, List.length_cons] at enough <;> omega
      cases items with
      | nil => rfl
      | cons item items =>
          simp only [tokensOf, List.length_cons] at enough
          have inside := @itemsWithin_tokensOf rest item items fewer inductionHypothesis (by omega)
          obtain ⟨first, others, tokens, notClosed⟩ := exists_tokensOf item
          rw [tokensOf, List.cons_append, List.append_assoc]
          rw [tokens] at inside ⊢
          rw [documentWithin, inside]
          · rfl
          · exact fun _ same => notClosed (List.cons.inj same).1
  | @record entries each inductionHypothesis =>
      intro bound rest enough
      obtain ⟨fewer, rfl⟩ : ∃ fewer, bound = fewer + 1 := by
        refine ⟨bound - 1, ?_⟩
        rcases entries with _ | ⟨⟨key, value⟩, entries⟩ <;>
          simp only [tokensOf, List.length_cons] at enough <;> omega
      rcases entries with _ | ⟨⟨key, value⟩, entries⟩
      · rfl
      · simp only [tokensOf, List.length_cons] at enough
        have inside := @entriesWithin_tokensOf rest key value entries fewer inductionHypothesis (by omega)
        rw [tokensOf, List.cons_append, List.cons_append, List.cons_append, List.append_assoc, documentWithin,
          inside]
        · rfl
        · exact fun _ same => nomatch same

/-- The text of a value is read as its document. -/
theorem read?_json {value : Value} (spelled : value.IsSpelled) : read? value.json = some value.document := by
  have tokens : tokens? value.json = some (tokensOf value) := by
    have apart := @fallsApart value spelled [] (by rintro _ ⟨⟩)
    rw [List.append_nil] at apart
    rw [apart]
    simp [tokens?, tokensWithin]
  have whole := @makesUp value spelled ((tokensOf value).length + 1) [] (Nat.le_succ _)
  rw [List.append_nil] at whole
  rw [read?, tokens]
  dsimp only
  rw [whole]

end Documents

end Json

end Orchestration
