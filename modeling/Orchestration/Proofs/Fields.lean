import Orchestration.Definition.Written
import Orchestration.Proofs.Values

/-!
# Fields of records

A record is written from slots, one for each known field, in order and with nothing in those that are
left out. Its document has the fields whose slots are filled, so that each field is read back from its
slot. What was read from a field was read from a part of the document.
-/

namespace Orchestration

/-- The known fields of a record with what is written for them, which is nothing for a field that is left
out. -/
abbrev Slots := List (String × Option Value)

/-- What is written for a list. -/
def listSlot (items : List Value) : Option Value := if items.isEmpty then none else some (.list items)

/-- A list is left out of a record when it is empty, and is written as it is else. -/
theorem optionalEntry_listSlot (name : String) (items : List Value) :
    optionalEntry name (listSlot items) = listEntry name items := by
  unfold listSlot listEntry
  split <;> rfl

namespace Document

variable {names : List String} {dialect : Dialect} {document : Document}

/-- Distinct names pass the test for repetitions. -/
theorem isRepetitionFree_of_nodup (distinct : names.Nodup) : isRepetitionFree names = true := by
  induction names with
  | nil => rfl
  | cons name names inductionHypothesis =>
      obtain ⟨fresh, others⟩ := List.nodup_cons.mp distinct
      simp [isRepetitionFree, fresh, inductionHypothesis others]

/-- The keys of a record of values are all there. -/
theorem keyed?_documentEntries (entries : List (String × Value)) :
    keyed? (Value.documentEntries entries) = some (entries.map fun entry => (entry.1, entry.2.document)) := by
  induction entries with
  | nil => rfl
  | cons entry entries inductionHypothesis =>
      rw [Value.documentEntries, keyed?, inductionHypothesis]
      rfl

/-- The documents directly inside of one. -/
def parts : Document → List Document
  | .scalar _ => []
  | .sequence items => items
  | .mapping entries => entries.map Prod.snd

/-- The parts of what JSON can spell can be spelled too. -/
theorem IsJson.of_mem_parts {part : Document} (spelled : document.IsJson) (within : part ∈ document.parts) :
    part.IsJson := by
  cases spelled with
  | scalar => cases within
  | sequence each => exact each part within
  | mapping each =>
      obtain ⟨entry, inside, rfl⟩ := List.mem_map.mp within
      exact each entry inside

/-- A part is less deep than the whole. -/
theorem depth_of_mem_parts {part : Document} (within : part ∈ document.parts) :
    part.depth + 1 ≤ document.depth := by
  cases document with
  | scalar => cases within
  | sequence items => exact Nat.succ_le_succ (depthOfItems_le_iff.mp le_rfl part within)
  | mapping entries =>
      obtain ⟨entry, inside, rfl⟩ := List.mem_map.mp within
      exact Nat.succ_le_succ (depthOfEntries_le_iff.mp le_rfl entry inside)

/-- Fields that have keys are the entries that were there. -/
theorem mem_of_keyed? {entries : List (Option String × Document)} {fields : Fields}
    (found : keyed? entries = some fields) : ∀ field ∈ fields, field.2 ∈ entries.map Prod.snd := by
  induction entries generalizing fields with
  | nil =>
      cases found
      exact fun _ within => (List.not_mem_nil within).elim
  | cons entry entries inductionHypothesis =>
      obtain ⟨_ | key, document⟩ := entry
      · cases found
      · obtain ⟨others, readOthers, rfl⟩ := Option.map_eq_some_iff.mp found
        exact List.forall_mem_cons.mpr ⟨List.mem_cons_self, fun field within =>
          List.mem_cons_of_mem _ (inductionHypothesis readOthers field within)⟩

/-- The fields of a document are parts of it. -/
theorem mem_parts_of_fields? {fields : Fields} (found : document.fields? dialect names = some fields) :
    ∀ field ∈ fields, field.2 ∈ document.parts := by
  cases document with
  | scalar => cases found
  | sequence items =>
      unfold fields? at found
      dsimp only at found
      split at found
      · cases found
        exact fun field within => (List.of_mem_zip within).2
      · cases found
  | mapping entries =>
      obtain ⟨all, keys, found⟩ := Option.bind_eq_some_iff.mp found
      dsimp only at found
      split at found
      · cases found
        exact fun field within => mem_of_keyed? keys field (List.mem_filter.mp within).1
      · cases found

/-- The fields of what JSON can spell can be spelled too. -/
theorem IsJson.fields (spelled : document.IsJson) {fields : Fields}
    (found : document.fields? dialect names = some fields) : ∀ field ∈ fields, field.2.IsJson :=
  fun field within => spelled.of_mem_parts (mem_parts_of_fields? found field within)

end Document

/-- That a field is found as a slot has it. -/
def Fields.Holds (fields : Fields) (name : String) (value? : Option Value) : Prop :=
  fields.find? name = value?.map Value.document

namespace Slots

variable {slots : Slots}

/-- The entries of the record that is written from slots. -/
def entries (slots : Slots) : List (String × Value) :=
  slots.flatMap fun slot => optionalEntry slot.1 slot.2

/-- The fields that are found in the document of the record. -/
def fields (slots : Slots) : Fields :=
  slots.entries.map fun entry => (entry.1, entry.2.document)

/-- A slot comes to one entry or to none. -/
theorem entries_cons (slot : String × Option Value) (slots : Slots) :
    entries (slot :: slots) = optionalEntry slot.1 slot.2 ++ slots.entries := rfl

/-- What is written has names of slots in their order, those left out that have no value. -/
theorem keys_entries_sublist (slots : Slots) : (slots.entries.map Prod.fst).Sublist (slots.map Prod.fst) := by
  induction slots with
  | nil => exact .slnil
  | cons slot slots inductionHypothesis =>
      obtain ⟨name, _ | value⟩ := slot
      · exact inductionHypothesis.cons name
      · exact inductionHypothesis.cons_cons name

/-- The fields of a record are named as its entries are. -/
theorem keys_fields (slots : Slots) : slots.fields.map Prod.fst = slots.entries.map Prod.fst := by
  simp [fields]

/-- The document of a record has all the fields that were filled in. -/
theorem fields?_record {names : List String} (dialect : Dialect) (known : slots.map Prod.fst = names)
    (distinct : names.Nodup) :
    (Value.record slots.entries).document.fields? dialect names = some slots.fields := by
  have sublist := slots.keys_entries_sublist
  rw [known] at sublist
  have all : slots.fields.filter (fun field => names.contains field.1) = slots.fields := by
    refine List.filter_eq_self.mpr fun field within => List.contains_iff_mem.mpr (sublist.subset ?_)
    rw [← keys_fields]
    exact List.mem_map_of_mem within
  have free : Document.isRepetitionFree (slots.fields.map Prod.fst) = true :=
    Document.isRepetitionFree_of_nodup (by rw [keys_fields]; exact distinct.sublist sublist)
  rw [Value.document, Document.fields?, Document.keyed?_documentEntries]
  change (if Document.isRepetitionFree ((slots.fields.filter _).map Prod.fst) = true then
    some (slots.fields.filter _) else none) = _
  rw [all, free, if_pos rfl]

/-- A field is found in the document exactly as its slot has it. -/
theorem holds (distinct : (slots.map Prod.fst).Nodup) (name : String) {value? : Option Value}
    (found : slots.lookup name = some value?) : slots.fields.Holds name value? := by
  induction slots with
  | nil => cases found
  | cons slot slots inductionHypothesis =>
      obtain ⟨other, written?⟩ := slot
      obtain ⟨fresh, others⟩ := List.nodup_cons.mp distinct
      by_cases same : name = other
      · subst same
        obtain rfl : written? = value? := by simpa using found
        cases written? with
        | some value => simp [Fields.Holds, fields, entries_cons, optionalEntry, Fields.find?]
        | none =>
            -- The field is left out, and since names differ no later slot can stand in for it.
            have absent : ∀ field ∈ fields slots, ¬ field.1 = name := by
              rintro field inside rfl
              refine fresh ((keys_entries_sublist slots).subset ?_)
              rw [← keys_fields]
              exact List.mem_map_of_mem inside
            have missing : (fields slots).find? name = none := by
              simpa [Fields.find?, List.find?_eq_none] using absent
            exact missing
      · have later : slots.lookup name = some value? := by
          rwa [List.lookup_cons, beq_eq_false_iff_ne.mpr same] at found
        have holds : (fields slots).find? name = _ := inductionHypothesis others later
        rw [Fields.Holds, ← holds]
        cases written? <;> simp [fields, entries_cons, optionalEntry, Fields.find?, Ne.symm same]

/-- That JSON can spell what the slots have. -/
def AreSpelled (slots : Slots) : Prop := ∀ slot ∈ slots, ∀ value ∈ slot.2, value.IsSpelled

/-- A record is spelled where its slots are. -/
theorem AreSpelled.record (spelled : slots.AreSpelled) : (Value.record slots.entries).IsSpelled := by
  refine .record fun entry within => ?_
  obtain ⟨slot, inside, filled⟩ := List.mem_flatMap.mp within
  obtain ⟨value, held, rfl⟩ := List.mem_map.mp filled
  exact spelled slot inside value (Option.mem_toList.mp held)

/-- Nothing is to be spelled of no slots. -/
theorem AreSpelled.nil : AreSpelled [] := fun _ within => (List.not_mem_nil within).elim

section Cons

variable {α : Type} {write : α → Value} {name : String}

/-- One more slot is spelled where its value is. -/
theorem AreSpelled.cons {value? : Option Value} (first : ∀ value ∈ value?, value.IsSpelled)
    (others : slots.AreSpelled) : AreSpelled ((name, value?) :: slots) :=
  List.forall_mem_cons.mpr ⟨first, others⟩

/-- A slot that is never left out is spelled where its value is. -/
theorem AreSpelled.required {value : Value} (spelled : value.IsSpelled) (others : slots.AreSpelled) :
    AreSpelled ((name, some value) :: slots) :=
  .cons (by rintro _ ⟨⟩; exact spelled) others

/-- A slot that may be left out is spelled where what it has is. -/
theorem AreSpelled.optional {held : Option α} (spelled : ∀ value ∈ held, (write value).IsSpelled)
    (others : slots.AreSpelled) : AreSpelled ((name, held.map write) :: slots) := by
  refine .cons (fun value within => ?_) others
  obtain ⟨inner, inside, rfl⟩ := Option.map_eq_some_iff.mp within
  exact spelled inner inside

/-- A list is spelled where all its items are. -/
theorem isSpelled_list {items : List α} (spelled : ∀ item ∈ items, (write item).IsSpelled) :
    (Value.list (items.map write)).IsSpelled := by
  refine .list fun value within => ?_
  obtain ⟨item, inside, rfl⟩ := List.mem_map.mp within
  exact spelled item inside

/-- A slot for a list is spelled where all the items are. -/
theorem AreSpelled.list {items : List α} (spelled : ∀ item ∈ items, (write item).IsSpelled)
    (others : slots.AreSpelled) : AreSpelled ((name, listSlot (items.map write)) :: slots) := by
  refine .cons (fun value within => ?_) others
  unfold listSlot at within
  split at within
  · cases within
  · cases within
    exact isSpelled_list spelled

/-- Texts are always spelled. -/
theorem AreSpelled.text {written : String} (others : slots.AreSpelled) :
    AreSpelled ((name, some (.text written)) :: slots) :=
  .required (.text written) others

/-- Texts that may be left out are always spelled. -/
theorem AreSpelled.optionalText {held : Option String} (others : slots.AreSpelled) :
    AreSpelled ((name, held.map .text) :: slots) :=
  .optional (fun written _ => .text written) others

end Cons

end Slots

/-- A reader goes on with what was found. -/
theorem bind_of_some {α β : Type} {first : Option α} {rest : α → Option β} {value : α} {result : Option β}
    (found : first = some value) (follows : rest value = result) : (first >>= rest) = result := by
  rw [found]
  exact follows

namespace Fields

section Back

variable {α : Type} {read : Document → Option α} {write : α → Value} {fields : Fields} {name : String}

/-- A field that is never left out is read back where its value is. -/
theorem Holds.required {value : Value} {held : α} (holds : fields.Holds name (some value))
    (reads : read value.document = some held) : fields.required read name = some held := by
  rw [Fields.required, holds]
  exact reads

/-- A field that is there is read back whatever the default is. -/
theorem Holds.withDefault {value : Value} {held : α} (holds : fields.Holds name (some value)) (other : α)
    (reads : read value.document = some held) : fields.withDefault read other name = some held := by
  rw [Fields.withDefault, holds]
  exact reads

/-- A field that may be left out is read back where no value is taken for null. -/
theorem Holds.optional {held : Option α} (holds : fields.Holds name (held.map write))
    (present : ∀ value, (write value).document.isNull = false)
    (reads : ∀ value ∈ held, read (write value).document = some value) :
    fields.optional read name = some held := by
  rw [Fields.optional, holds]
  cases held with
  | none => rfl
  | some value => simp [present, reads value rfl]

/-- A text is read back from its field. -/
theorem Holds.text {held : String} (holds : fields.Holds name (some (.text held))) :
    fields.required Document.text? name = some held :=
  holds.required rfl

/-- A text that may be left out is read back from its field. -/
theorem Holds.optionalText {held : Option String} (holds : fields.Holds name (held.map Value.text)) :
    fields.optional Document.text? name = some held :=
  holds.optional (fun _ => rfl) fun _ _ => rfl

/-- A flag is written only when it is set, and is read back either way. -/
theorem Holds.flag {held : Bool} (holds : fields.Holds name (if held then some (.boolean true) else none)) :
    fields.withDefault Document.boolean? false name = some held := by
  rw [Fields.withDefault, holds]
  cases held <;> rfl

/-- Items are read back from their documents one by one. -/
theorem all_documents {items : List α} (reads : ∀ item ∈ items, read (write item).document = some item) :
    all read (Value.documents (items.map write)) = some items := by
  induction items with
  | nil => rfl
  | cons item items inductionHypothesis =>
      obtain ⟨first, others⟩ := List.forall_mem_cons.mp reads
      rw [List.map_cons, Value.documents, all, first, inductionHypothesis others]

/-- A list is read back from its field, which is left out when it is empty. -/
theorem Holds.list {items : List α} (holds : fields.Holds name (listSlot (items.map write)))
    (reads : ∀ item ∈ items, read (write item).document = some item) :
    fields.list read name = some items := by
  rw [Fields.list, Fields.withDefault, holds]
  cases items with
  | nil => rfl
  | cons item items => exact all_documents reads

end Back

section Parts

variable {α : Type} {read : Document → Option α} {Good : α → Prop} {fields : Fields} {name : String}

/-- What is found under a name is one of the fields. -/
theorem exists_of_find? {document : Document} (found : fields.find? name = some document) :
    ∃ field ∈ fields, field.2 = document := by
  obtain ⟨field, present, same⟩ := Option.map_eq_some_iff.mp found
  exact ⟨field, List.mem_of_find?_eq_some present, same⟩

/-- What is found among fields that can be spelled can be spelled. -/
theorem isJson_of_find? (each : ∀ field ∈ fields, field.2.IsJson) {document : Document}
    (found : fields.find? name = some document) : document.IsJson := by
  obtain ⟨field, present, rfl⟩ := exists_of_find? found
  exact each field present

variable (each : ∀ field ∈ fields, field.2.IsJson)
  (good : ∀ {document held}, document.IsJson → read document = some held → Good held)

include each good

/-- What is read from a field that has to be there is good. -/
theorem of_required {held : α} (found : fields.required read name = some held) : Good held := by
  obtain ⟨document, present, reads⟩ := Option.bind_eq_some_iff.mp found
  exact good (isJson_of_find? each present) reads

/-- What is read from a field that may be missing is good, if anything is. -/
theorem of_optional {held : Option α} (found : fields.optional read name = some held) :
    ∀ value ∈ held, Good value := by
  rintro value rfl
  unfold optional at found
  split at found
  · cases found
  · next document present =>
      split at found
      · cases found
      · obtain ⟨_, reads, same⟩ := Option.map_eq_some_iff.mp found
        cases same
        exact good (isJson_of_find? each present) reads

/-- What is read from a field is good, where the default is. -/
theorem of_withDefault {held other : α} (otherGood : Good other)
    (found : fields.withDefault read other name = some held) : Good held := by
  unfold withDefault at found
  split at found
  · cases found
    exact otherGood
  · next document present => exact good (isJson_of_find? each present) found

omit each in
/-- What is read from documents is good item by item. -/
theorem of_all {documents : List Document} {items : List α}
    (spelled : ∀ document ∈ documents, document.IsJson) (found : all read documents = some items) :
    ∀ item ∈ items, Good item := by
  induction documents generalizing items with
  | nil =>
      cases found
      exact fun _ within => (List.not_mem_nil within).elim
  | cons document documents inductionHypothesis =>
      obtain ⟨first, others⟩ := List.forall_mem_cons.mp spelled
      rw [all] at found
      split at found
      · next value values reads readOthers =>
          cases found
          exact List.forall_mem_cons.mpr ⟨good first reads, inductionHypothesis others readOthers⟩
      · cases found

omit each in
/-- What is read from the items of a document is good. -/
theorem of_items {document : Document} {items : List α} (spelled : document.IsJson)
    (found : document.items?.bind (all read) = some items) : ∀ item ∈ items, Good item := by
  obtain ⟨documents, parts, found⟩ := Option.bind_eq_some_iff.mp found
  cases spelled with
  | sequence spelled =>
      cases parts
      exact of_all good spelled found
  | mapping => cases parts
  | @scalar content spelled =>
      cases content with
      | plain => exact spelled.elim
      | _ => cases parts

/-- What is read from a field for a list is good. -/
theorem of_list {items : List α} (found : fields.list read name = some items) : ∀ item ∈ items, Good item :=
  @of_withDefault _ _ (fun items => ∀ item ∈ items, Good item) _ _ each (of_items good) _ _
    (fun _ within => (List.not_mem_nil within).elim) found

end Parts

end Fields

end Orchestration
