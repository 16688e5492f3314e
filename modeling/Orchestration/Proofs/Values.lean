import Orchestration.Definition.Reading
import Orchestration.Proofs.Documents

/-!
# Values of documents

A document that JSON spells has a value that can be stored: its numbers fit and its records are in the
order of their keys. The document that mirrors a stored value has that value again, and it is nested no
deeper than the document that the value came from.
-/

namespace Orchestration

/-! ## Bags in order -/

namespace Bag

variable {key : String} {value : Value} {bag : Bag}

/-- That the keys of a bag stand in their order, each of them once. -/
def IsOrdered (bag : Bag) : Prop := bag.Pairwise fun first second => first.1 < second.1

/-- Nothing is found under a key exactly if no entry has it. -/
theorem find?_eq_none_iff : find? key bag = none ↔ ∀ entry ∈ bag, entry.1 ≠ key := by
  induction bag with
  | nil => simp [find?]
  | cons entry rest inductionHypothesis =>
      by_cases same : entry.1 = key <;> simp [find?, same, inductionHypothesis]

/-- A key is missing exactly if no entry has it. -/
theorem contains_eq_false_iff : contains key bag = false ↔ ∀ entry ∈ bag, entry.1 ≠ key := by
  rw [← find?_eq_none_iff, contains, Option.isSome_eq_false_iff, Option.isNone_iff_eq_none]

/-- Replacing a value brings in no other entry. -/
theorem mem_of_mem_replace {entry : String × Value} (within : entry ∈ replace key value bag) :
    entry = (key, value) ∨ entry ∈ bag := by
  induction bag with
  | nil => cases within
  | cons present rest inductionHypothesis =>
      obtain ⟨name, old⟩ := present
      rw [replace] at within
      split at within
      · next same =>
          subst same
          exact (List.mem_cons.mp within).imp_right (List.mem_cons_of_mem _)
      · rcases List.mem_cons.mp within with rfl | within
        · exact .inr List.mem_cons_self
        · exact (inductionHypothesis within).imp_right (List.mem_cons_of_mem _)

/-- Adding an entry brings in no other one. -/
theorem mem_of_mem_addSorted {entry : String × Value} (within : entry ∈ addSorted key value bag) :
    entry = (key, value) ∨ entry ∈ bag := by
  induction bag with
  | nil => exact .inl (List.mem_singleton.mp within)
  | cons present rest inductionHypothesis =>
      obtain ⟨name, old⟩ := present
      rw [addSorted] at within
      split at within
      · exact List.mem_cons.mp within
      · rcases List.mem_cons.mp within with rfl | within
        · exact .inr List.mem_cons_self
        · exact (inductionHypothesis within).imp_right (List.mem_cons_of_mem _)

/-- Inserting an entry brings in no other one. -/
theorem mem_of_mem_insert {entry : String × Value} (within : entry ∈ insert key value bag) :
    entry = (key, value) ∨ entry ∈ bag := by
  unfold insert at within
  split at within
  · exact mem_of_mem_replace within
  · exact mem_of_mem_addSorted within

/-- Replacing a value keeps all keys in their order. -/
theorem keys_replace (key : String) (value : Value) (bag : Bag) :
    (replace key value bag).map Prod.fst = bag.map Prod.fst := by
  induction bag with
  | nil => rfl
  | cons entry rest inductionHypothesis =>
      rw [replace]
      split
      · rfl
      · simp [inductionHypothesis]

/-- A bag stays in order where a value is replaced. -/
theorem IsOrdered.replace (ordered : bag.IsOrdered) : (Bag.replace key value bag).IsOrdered := by
  have keys : (bag.map Prod.fst).Pairwise (· < ·) := List.pairwise_map.mpr ordered
  rw [← keys_replace key value] at keys
  exact List.pairwise_map.mp keys

/-- A bag stays in order where a key is added that it does not have. -/
theorem IsOrdered.addSorted (ordered : bag.IsOrdered) (absent : ∀ entry ∈ bag, entry.1 ≠ key) :
    (Bag.addSorted key value bag).IsOrdered := by
  induction bag with
  | nil => exact List.pairwise_singleton _ _
  | cons present rest inductionHypothesis =>
      obtain ⟨name, old⟩ := present
      obtain ⟨first, behind⟩ := List.pairwise_cons.mp ordered
      rw [Bag.addSorted]
      split
      · next earlier =>
          refine List.pairwise_cons.mpr ⟨fun entry within => ?_, ordered⟩
          rcases List.mem_cons.mp within with rfl | within
          · exact earlier
          · exact earlier.trans (first entry within)
      · next notEarlier =>
          have different : name ≠ key := absent _ List.mem_cons_self
          refine List.pairwise_cons.mpr ⟨fun entry within => ?_,
            inductionHypothesis behind fun entry within => absent entry (List.mem_cons_of_mem _ within)⟩
          rcases mem_of_mem_addSorted within with rfl | within
          · exact lt_of_le_of_ne (not_lt.mp notEarlier) different
          · exact first entry within

/-- A bag stays in order whatever is inserted. -/
theorem IsOrdered.insert (ordered : bag.IsOrdered) : (Bag.insert key value bag).IsOrdered := by
  unfold Bag.insert
  split
  · exact ordered.replace
  · next absent => exact ordered.addSorted (contains_eq_false_iff.mp (Bool.eq_false_iff.mpr absent))

/-- A bag stays in order where entries are inserted one after another. -/
theorem IsOrdered.insertAll {entries : List (String × Value)} (ordered : bag.IsOrdered) :
    (Bag.insertAll entries bag).IsOrdered := by
  induction entries generalizing bag with
  | nil => exact ordered
  | cons entry entries inductionHypothesis => exact inductionHypothesis ordered.insert

/-- Every bag that is made of entries is in order. -/
theorem isOrdered_ofList (entries : List (String × Value)) : (ofList entries).IsOrdered :=
  IsOrdered.insertAll List.Pairwise.nil

/-- What is in a bag was in it, or is among the entries that were inserted. -/
theorem mem_of_mem_insertAll {entries : List (String × Value)} {entry : String × Value}
    (within : entry ∈ insertAll entries bag) : entry ∈ entries ∨ entry ∈ bag := by
  induction entries generalizing bag with
  | nil => exact .inr within
  | cons first entries inductionHypothesis =>
      rcases inductionHypothesis within with later | within
      · exact .inl (List.mem_cons_of_mem _ later)
      · rcases mem_of_mem_insert within with rfl | within
        · exact .inl List.mem_cons_self
        · exact .inr within

/-- A bag that is made of entries has no others. -/
theorem mem_of_mem_ofList {entries : List (String × Value)} {entry : String × Value}
    (within : entry ∈ ofList entries) : entry ∈ entries :=
  (mem_of_mem_insertAll within).resolve_right List.not_mem_nil

/-- A key behind all others is put at the end. -/
theorem insert_last (behind : ∀ entry ∈ bag, entry.1 < key) :
    insert key value bag = bag ++ [(key, value)] := by
  have absent : contains key bag = false :=
    contains_eq_false_iff.mpr fun entry within => (behind entry within).ne
  rw [insert, absent, if_neg Bool.false_ne_true]
  clear absent
  induction bag with
  | nil => rfl
  | cons present rest inductionHypothesis =>
      obtain ⟨name, old⟩ := present
      have notEarlier : ¬ key < name := (behind _ List.mem_cons_self).asymm
      rw [addSorted, if_neg notEarlier,
        inductionHypothesis fun entry within => behind entry (List.mem_cons_of_mem _ within), List.cons_append]

/-- Entries that are in order behind a bag are inserted at its end. -/
theorem insertAll_of_isOrdered {entries : List (String × Value)} (ordered : IsOrdered (bag ++ entries)) :
    insertAll entries bag = bag ++ entries := by
  induction entries generalizing bag with
  | nil => exact (List.append_nil bag).symm
  | cons entry entries inductionHypothesis =>
      have behind : ∀ present ∈ bag, present.1 < entry.1 := fun present within =>
        (List.pairwise_append.mp ordered).2.2 present within entry List.mem_cons_self
      rw [List.append_cons] at ordered ⊢
      rw [← inductionHypothesis ordered, ← insert_last behind]
      rfl

/-- Entries in order are their own bag. -/
theorem ofList_of_isOrdered {entries : List (String × Value)} (ordered : IsOrdered entries) :
    ofList entries = entries :=
  insertAll_of_isOrdered ordered

end Bag

/-! ## Stored values -/

/-- That a value is one that a variable can have: its numbers are, and its records are in order. -/
inductive Value.IsStored : Value → Prop where
  | null : IsStored .null
  | boolean (value : Bool) : IsStored (.boolean value)
  | number {held : Number} (stored : held.IsStored) : IsStored (.number held)
  | text (written : String) : IsStored (.text written)
  | list {items : List Value} (each : ∀ item ∈ items, IsStored item) : IsStored (.list items)
  | record {entries : List (String × Value)} (each : ∀ entry ∈ entries, IsStored entry.2)
      (ordered : Bag.IsOrdered entries) : IsStored (.record entries)

/-- What is stored can be spelled. -/
theorem Value.IsStored.isSpelled {value : Value} (stored : value.IsStored) : value.IsSpelled := by
  induction stored with
  | null => exact .null
  | boolean value => exact .boolean value
  | number stored => exact .number stored
  | text written => exact .text written
  | list _ inductionHypothesis => exact .list inductionHypothesis
  | record _ _ inductionHypothesis => exact .record inductionHypothesis

namespace Document

/-- Items are read back from their documents. -/
theorem values?_documents {items : List Value} (each : ∀ item ∈ items, item.document.value? = some item) :
    values? (Value.documents items) = some items := by
  induction items with
  | nil => rfl
  | cons item items inductionHypothesis =>
      rw [Value.documents, values?, each item List.mem_cons_self,
        inductionHypothesis fun other within => each other (List.mem_cons_of_mem _ within)]

/-- Entries are read back from their documents. -/
theorem entries?_documentEntries {entries : List (String × Value)}
    (each : ∀ entry ∈ entries, entry.2.document.value? = some entry.2) :
    entries? (Value.documentEntries entries) = some entries := by
  induction entries with
  | nil => rfl
  | cons entry entries inductionHypothesis =>
      rw [Value.documentEntries, entries?, each entry List.mem_cons_self,
        inductionHypothesis fun other within => each other (List.mem_cons_of_mem _ within)]

/-- The document of a stored value has this value. -/
theorem value?_document {value : Value} (stored : value.IsStored) : value.document.value? = some value := by
  induction stored with
  | null => rfl
  | boolean value => rfl
  | @number held stored =>
      cases held with
      | integer value => rfl
      | double value =>
          have finite : Binary64.isFinite value = true := stored
          simp [Value.document, value?, Scalar.value?, Scalar.resolve, Scalar.numberValue, finite,
            Value.double]
  | text written => rfl
  | list _ inductionHypothesis => rw [Value.document, value?, values?_documents inductionHypothesis]; rfl
  | record _ ordered inductionHypothesis =>
      rw [Value.document, value?, entries?_documentEntries inductionHypothesis, Option.map_some,
        Bag.ofList_of_isOrdered ordered]

end Document

/-! ## Documents that JSON spells -/

/-- That JSON can spell a scalar: it is in quotes or a word, or a number that can be stored. -/
def Scalar.IsJson : Scalar → Prop
  | .number held => ∀ number ∈ held, number.IsStored
  | .plain _ => False
  | _ => True

/-- That JSON can spell a document. -/
inductive Document.IsJson : Document → Prop where
  | scalar {content : Scalar} (spelled : content.IsJson) : IsJson (.scalar content)
  | sequence {items : List Document} (each : ∀ item ∈ items, IsJson item) : IsJson (.sequence items)
  | mapping {entries : List (Option String × Document)} (each : ∀ entry ∈ entries, IsJson entry.2) :
      IsJson (.mapping entries)

namespace Json

/-- Numbers that are read fit where numbers are stored: whole ones a word, doubles are finite. -/
theorem isStored_of_magnitude? {negative : Bool} {magnitude : List Char} {held : Option Number}
    (read : magnitude? negative magnitude = some held) : ∀ number ∈ held, number.IsStored := by
  have ofDouble : ∀ {value : Float} {number : Number},
      (if Binary64.isFinite value then some (Number.double value) else none) = some number →
        number.IsStored := by
    intro value number found
    split at found
    · next finite =>
        cases found
        exact finite
    · cases found
  rintro number rfl
  unfold magnitude? at read
  dsimp only at read
  split at read
  · cases read
  · split at read
    · split at read
      · next unsigned =>
          cases read
          simp only [Bool.and_eq_true, Word.isUnsigned, decide_eq_true_eq] at unsigned
          constructor <;> omega
      · split at read
        · next signed =>
            cases read
            simp only [Bool.and_eq_true, decide_eq_true_eq] at signed
            constructor <;> omega
        · exact ofDouble (Option.some.inj read)
    · split at read
      · cases read
      · obtain ⟨exponent, -, found⟩ := Option.map_eq_some_iff.mp read
        exact ofDouble found
    · obtain ⟨exponent, -, found⟩ := Option.map_eq_some_iff.mp read
      exact ofDouble found

/-- Signed numbers that are read fit where numbers are stored. -/
theorem isStored_of_number? {text : List Char} {held : Option Number} (read : number? text = some held) :
    ∀ number ∈ held, number.IsStored := by
  unfold number? at read
  split at read
  · exact isStored_of_magnitude? read
  · exact isStored_of_magnitude? read

/-- A word is no plain scalar and no number. -/
theorem isJson_of_word? {word : List Char} {content : Scalar} (means : word? word = some content) :
    content.IsJson := by
  unfold word? at means
  split_ifs at means <;> cases means <;> trivial

/-- That the scalars among tokens are ones that JSON can spell. -/
def AreJson (tokens : List Token) : Prop :=
  ∀ content, .scalar content ∈ tokens → content.IsJson

section Tokens

variable {token : Token} {tokens : List Token}

/-- A list of tokens is JSON where each of them is. -/
theorem areJson_cons :
    AreJson (token :: tokens) ↔ (∀ content, token = .scalar content → content.IsJson) ∧ AreJson tokens := by
  simp only [AreJson, List.mem_cons]
  constructor
  · exact fun all => ⟨fun content same => all content (.inl same.symm),
      fun content within => all content (.inr within)⟩
  · rintro ⟨first, others⟩ content (same | within)
    · exact first content same.symm
    · exact others content within

/-- Tokens that are read from a text are JSON. -/
theorem areJson_of_tokensWithin {bound : Nat} {text : List Char}
    (read : tokensWithin bound text = some tokens) : AreJson tokens := by
  induction bound generalizing text tokens with
  | zero =>
      cases text with
      | nil =>
          cases read
          exact fun _ within => nomatch within
      | cons => cases read
  | succ bound inductionHypothesis =>
      cases text with
      | nil =>
          cases read
          exact fun _ within => nomatch within
      | cons character rest =>
          have further : ∀ {after : List Char} {content : Scalar}, content.IsJson →
              (tokensWithin bound after).map (.scalar content :: ·) = some tokens → AreJson tokens := by
            intro after content spelled found
            obtain ⟨others, readAfter, rfl⟩ := Option.map_eq_some_iff.mp found
            refine areJson_cons.mpr ⟨fun other same => ?_, inductionHypothesis readAfter⟩
            cases same
            exact spelled
          rw [tokensWithin] at read
          split_ifs at read
          · exact inductionHypothesis read
          · split at read
            · exact @further _ (.text _) trivial read
            · cases read
          · split at read
            · next number found => exact @further _ (.number _) (isStored_of_number? found) read
            · cases read
          · split at read
            · next content found => exact further (isJson_of_word? found) read
            · cases read
          · split at read
            · next sign isSign =>
                obtain ⟨others, readAfter, rfl⟩ := Option.map_eq_some_iff.mp read
                refine areJson_cons.mpr ⟨fun content same => ?_, inductionHypothesis readAfter⟩
                subst same
                unfold sign? at isSign
                split at isSign <;> cases isSign
            · cases read

end Tokens

section Documents

variable {bound : Nat} {tokens rest : List Token}

/-- That what is read within a bound from tokens of JSON is of JSON, and what is left too. -/
structure ReadsJson (bound : Nat) : Prop where
  document : ∀ {tokens rest document}, AreJson tokens →
    documentWithin bound tokens = some (document, rest) → document.IsJson ∧ AreJson rest
  items : ∀ {tokens rest items}, AreJson tokens →
    itemsWithin bound tokens = some (items, rest) → (∀ item ∈ items, item.IsJson) ∧ AreJson rest
  entries : ∀ {tokens rest entries}, AreJson tokens →
    entriesWithin bound tokens = some (entries, rest) → (∀ entry ∈ entries, entry.2.IsJson) ∧ AreJson rest

/-- What follows a single token of JSON is of JSON. -/
theorem AreJson.tail {token : Token} (areJson : AreJson (token :: tokens)) : AreJson tokens :=
  (areJson_cons.mp areJson).2

/-- With one level more, documents that are read are JSON, and so is what is left. -/
theorem ReadsJson.document_succ (reads : ReadsJson bound) {document : Document} (areJson : AreJson tokens)
    (read : documentWithin (bound + 1) tokens = some (document, rest)) : document.IsJson ∧ AreJson rest := by
  rw [documentWithin.eq_def] at read
  dsimp only at read
  split at read
  · cases read
    exact ⟨.scalar ((areJson_cons.mp areJson).1 _ rfl), areJson.tail⟩
  · cases read
    exact ⟨.sequence fun _ within => (List.not_mem_nil within).elim, areJson.tail.tail⟩
  · obtain ⟨⟨items, after⟩, found, same⟩ := Option.map_eq_some_iff.mp read
    cases same
    obtain ⟨each, areAfter⟩ := reads.items areJson.tail found
    exact ⟨.sequence each, areAfter⟩
  · cases read
    exact ⟨.mapping fun _ within => (List.not_mem_nil within).elim, areJson.tail.tail⟩
  · obtain ⟨⟨entries, after⟩, found, same⟩ := Option.map_eq_some_iff.mp read
    cases same
    obtain ⟨each, areAfter⟩ := reads.entries areJson.tail found
    exact ⟨.mapping each, areAfter⟩
  · cases read

/-- With one level more, items that are read are JSON, and so is what is left. -/
theorem ReadsJson.items_succ (reads : ReadsJson bound) {items : List Document} (areJson : AreJson tokens)
    (read : itemsWithin (bound + 1) tokens = some (items, rest)) :
    (∀ item ∈ items, item.IsJson) ∧ AreJson rest := by
  rw [itemsWithin] at read
  split at read
  · next item after found =>
      obtain ⟨first, areAfter⟩ := reads.document areJson found
      obtain ⟨⟨others, last⟩, readOthers, same⟩ := Option.map_eq_some_iff.mp read
      cases same
      obtain ⟨each, areLast⟩ := reads.items areAfter.tail readOthers
      exact ⟨List.forall_mem_cons.mpr ⟨first, each⟩, areLast⟩
  · next item after found =>
      cases read
      obtain ⟨first, areAfter⟩ := reads.document areJson found
      exact ⟨List.forall_mem_singleton.mpr first, areAfter.tail⟩
  · cases read

/-- With one level more, entries that are read are JSON, and so is what is left. -/
theorem ReadsJson.entries_succ (reads : ReadsJson bound) {entries : List (Option String × Document)}
    (areJson : AreJson tokens) (read : entriesWithin (bound + 1) tokens = some (entries, rest)) :
    (∀ entry ∈ entries, entry.2.IsJson) ∧ AreJson rest := by
  rw [entriesWithin.eq_def] at read
  dsimp only at read
  split at read
  · next key behind =>
      split at read
      · next document after found =>
          obtain ⟨first, areAfter⟩ := reads.document areJson.tail.tail found
          obtain ⟨⟨others, last⟩, readOthers, same⟩ := Option.map_eq_some_iff.mp read
          cases same
          obtain ⟨each, areLast⟩ := reads.entries areAfter.tail readOthers
          exact ⟨List.forall_mem_cons.mpr ⟨first, each⟩, areLast⟩
      · next document after found =>
          cases read
          obtain ⟨first, areAfter⟩ := reads.document areJson.tail.tail found
          exact ⟨List.forall_mem_singleton.mpr first, areAfter.tail⟩
      · cases read
  · cases read

/-- All that is read within a bound is JSON, by induction on the bound that the three readers share. -/
theorem readsJson (bound : Nat) : ReadsJson bound := by
  -- Each of the three readers calls the others with the next smaller bound.
  induction bound with
  | zero => exact ⟨fun _ read => (nomatch read), fun _ read => (nomatch read), fun _ read => (nomatch read)⟩
  | succ bound inductionHypothesis =>
      exact {
        document := inductionHypothesis.document_succ
        items := inductionHypothesis.items_succ
        entries := inductionHypothesis.entries_succ }

/-- What is read as JSON can be spelled in it. -/
theorem isJson_of_read? {text : List Char} {document : Document} (read : read? text = some document) :
    document.IsJson := by
  unfold read? at read
  split at read
  · next tokens found =>
      split at read
      · next whole made =>
          cases read
          exact ((readsJson _).document (areJson_of_tokensWithin found) made).1
      · cases read
  · cases read

end Documents

end Json

/-! ## Values within the limit of nesting -/

namespace Document

/-- Items are not deeper than a bound exactly if none of them is. -/
theorem depthOfItems_le_iff {items : List Document} {most : Nat} :
    depthOfItems items ≤ most ↔ ∀ item ∈ items, item.depth ≤ most := by
  induction items with
  | nil => simp [depthOfItems]
  | cons item items inductionHypothesis => simp [depthOfItems, inductionHypothesis]

/-- Entries are not deeper than a bound exactly if none of them is. -/
theorem depthOfEntries_le_iff {entries : List (Option String × Document)} {most : Nat} :
    depthOfEntries entries ≤ most ↔ ∀ entry ∈ entries, entry.2.depth ≤ most := by
  induction entries with
  | nil => simp [depthOfEntries]
  | cons entry entries inductionHypothesis =>
      rw [depthOfEntries, max_le_iff, inductionHypothesis, List.forall_mem_cons]

/-- The documents of values are not deeper than a bound exactly if none of them is. -/
theorem depthOfItems_documents_le_iff {items : List Value} {most : Nat} :
    depthOfItems (Value.documents items) ≤ most ↔ ∀ item ∈ items, item.document.depth ≤ most := by
  induction items with
  | nil => simp [Value.documents, depthOfItems]
  | cons item items inductionHypothesis => simp [Value.documents, depthOfItems, inductionHypothesis]

/-- The documents of a record are not deeper than a bound exactly if none of them is. -/
theorem depthOfEntries_documentEntries_le_iff {entries : List (String × Value)} {most : Nat} :
    depthOfEntries (Value.documentEntries entries) ≤ most ↔
      ∀ entry ∈ entries, entry.2.document.depth ≤ most := by
  induction entries with
  | nil => simp [Value.documentEntries, depthOfEntries]
  | cons entry entries inductionHypothesis =>
      rw [Value.documentEntries, depthOfEntries, max_le_iff, inductionHypothesis, List.forall_mem_cons]

/-- Each value that is read comes from one of the items. -/
theorem exists_item_of_values? {items : List Document} {values : List Value} {value : Value}
    (found : values? items = some values) (within : value ∈ values) :
    ∃ item ∈ items, item.value? = some value := by
  induction items generalizing values with
  | nil =>
      cases found
      cases within
  | cons item items inductionHypothesis =>
      rw [values?] at found
      split at found
      · next first others readFirst readOthers =>
          cases found
          rcases List.mem_cons.mp within with rfl | within
          · exact ⟨item, List.mem_cons_self, readFirst⟩
          · obtain ⟨other, inside, read⟩ := inductionHypothesis readOthers within
            exact ⟨other, List.mem_cons_of_mem _ inside, read⟩
      · cases found

/-- Each entry that is read comes from one of the entries. -/
theorem exists_entry_of_entries? {entries : List (Option String × Document)} {pairs : List (String × Value)}
    {pair : String × Value} (found : entries? entries = some pairs) (within : pair ∈ pairs) :
    ∃ entry ∈ entries, entry.2.value? = some pair.2 := by
  induction entries generalizing pairs with
  | nil =>
      cases found
      cases within
  | cons entry entries inductionHypothesis =>
      obtain ⟨_ | key, document⟩ := entry
      · cases found
      · rw [entries?] at found
        split at found
        · next first others readFirst readOthers =>
            cases found
            rcases List.mem_cons.mp within with rfl | within
            · exact ⟨_, List.mem_cons_self, readFirst⟩
            · obtain ⟨other, inside, read⟩ := inductionHypothesis readOthers within
              exact ⟨other, List.mem_cons_of_mem _ inside, read⟩
        · cases found

/-- A scalar of JSON has a value without containers that can be stored. -/
theorem isStored_of_scalar {content : Scalar} {value : Value} (spelled : content.IsJson)
    (found : content.value? = some value) : value.IsStored ∧ value.document.depth = 0 := by
  cases content with
  | null =>
      cases found
      exact ⟨.null, rfl⟩
  | boolean held =>
      cases found
      exact ⟨.boolean held, rfl⟩
  | text held =>
      obtain ⟨written, -, rfl⟩ := Option.map_eq_some_iff.mp found
      exact ⟨.text written, rfl⟩
  | plain => exact spelled.elim
  | number held =>
      obtain ⟨number, same, rfl⟩ := Option.map_eq_some_iff.mp found
      have stored := spelled number same
      unfold Scalar.numberValue
      split
      · exact ⟨.number stored, rfl⟩
      · split
        · exact ⟨.number stored, rfl⟩
        · exact ⟨.null, rfl⟩

/-- The value of a document of JSON can be stored, and it is nested no deeper than the document. -/
theorem IsJson.isStored {document : Document} (spelled : document.IsJson) {value : Value}
    (found : document.value? = some value) : value.IsStored ∧ value.document.depth ≤ document.depth := by
  induction spelled generalizing value with
  | scalar spelled =>
      obtain ⟨stored, flat⟩ := isStored_of_scalar spelled found
      exact ⟨stored, flat.le⟩
  | sequence each inductionHypothesis =>
      obtain ⟨values, held, rfl⟩ := Option.map_eq_some_iff.mp found
      refine ⟨.list fun value within => ?_,
        Nat.succ_le_succ (depthOfItems_documents_le_iff.mpr fun value within => ?_)⟩
      all_goals
        obtain ⟨item, inside, read⟩ := exists_item_of_values? held within
        obtain ⟨stored, depth⟩ := inductionHypothesis item inside read
      · exact stored
      · exact depth.trans (depthOfItems_le_iff.mp le_rfl item inside)
  | mapping each inductionHypothesis =>
      obtain ⟨pairs, held, rfl⟩ := Option.map_eq_some_iff.mp found
      refine ⟨.record (fun pair within => ?_) (Bag.isOrdered_ofList pairs),
        Nat.succ_le_succ (depthOfEntries_documentEntries_le_iff.mpr fun pair within => ?_)⟩
      all_goals
        obtain ⟨entry, inside, read⟩ := exists_entry_of_entries? held (Bag.mem_of_mem_ofList within)
        obtain ⟨stored, depth⟩ := inductionHypothesis entry inside read
      · exact stored
      · exact depth.trans (depthOfEntries_le_iff.mp le_rfl entry inside)

end Document

/-- That a value can be stored and stand inside a number of containers. -/
structure Value.Fits (containers : Nat) (value : Value) : Prop where
  stored : value.IsStored
  depth : containers + value.document.depth ≤ Document.maximumDepth

namespace Document

variable {containers : Nat} {value : Value} {document : Document}

/-- What is read under some containers is no deeper than they leave room for. -/
theorem fits_of_valueWithin? (spelled : document.IsJson)
    (found : document.valueWithin? containers = some value) : value.Fits containers := by
  unfold valueWithin? at found
  split at found
  · next shallow =>
      obtain ⟨stored, depth⟩ := spelled.isStored found
      exact ⟨stored, by omega⟩
  · cases found

/-- What fits under some containers is read back from its document there. -/
theorem valueWithin?_document (fits : value.Fits containers) :
    value.document.valueWithin? containers = some value := by
  rw [valueWithin?, if_pos fits.depth, value?_document fits.stored]

end Document

end Orchestration
