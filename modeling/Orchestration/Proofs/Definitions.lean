import Orchestration.Definition.Load
import Orchestration.Proofs.Fields
import Orchestration.Proofs.Timestamps

/-!
# Definitions read back

A definition that was read is one that can be written and read again: its numbers fit, its values nest no
deeper than they may, its deadlines have texts, and its activities have different ids. Of such a
definition every part is read back from the document of what is written for it.
-/

namespace Orchestration

/-! ## What can be read -/

/-- That a loop bound is one that can be read. -/
def LoopBound.IsReadable : LoopBound → Prop
  | .fixed value => Word.isSigned value = true
  | .expression _ => True

/-- That the duration of a wait is one that can be read. -/
def WaitDuration.IsReadable : WaitDuration → Prop
  | .milliseconds count => count < Word.count
  | .text _ => True

/-- That the source of a copy is one that can be read. Around a literal there is the source itself. -/
def CopySource.IsReadable : CopySource → Prop
  | .literal value => value.Fits (CopySource.containers + 1)
  | _ => True

/-- That a declared variable is one that can be read. -/
def VariableDeclaration.IsReadable (declared : VariableDeclaration) : Prop :=
  declared.initial.Fits VariableDeclaration.containers

/-- That an activity is one that can be read. -/
structure Activity.IsReadable (activity : Activity) : Prop where
  copies : ∀ copy ∈ activity.copies, copy.source.IsReadable
  startValue : ∀ bound ∈ activity.startValue, bound.IsReadable
  endValue : ∀ bound ∈ activity.endValue, bound.IsReadable
  duration : ∀ duration ∈ activity.duration, duration.IsReadable
  deadline : ∀ deadline ∈ activity.deadline, deadline.IsSpelled

/-- That a definition is one that can be read. -/
structure Definition.IsReadable (definition : Definition) : Prop where
  activities : ∀ activity ∈ definition.activities, activity.IsReadable
  distinct : (definition.activities.map Activity.id).Nodup
  declarations : ∀ declared ∈ definition.declarations, declared.IsReadable

/-! ## Handlers -/

namespace FaultHandler

/-- What is written for the fields of a fault handler. -/
def slots (handler : FaultHandler) : Slots :=
  [("faultName", some (.text handler.faultName)), ("faultVariable", handler.faultVariable.map .text),
    ("activity", some (.text handler.activity))]

/-- The value of a handler is the record of its slots. -/
theorem toValue_eq (handler : FaultHandler) : handler.toValue = .record handler.slots.entries := by
  simp [toValue, slots, Slots.entries, textEntry, optionalEntry]

/-- A handler is read back from its value. -/
theorem read?_toValue (dialect : Dialect) (handler : FaultHandler) :
    read? dialect handler.toValue.document = some handler := by
  have known : handler.slots.map Prod.fst = ["faultName", "faultVariable", "activity"] := rfl
  have distinct : ["faultName", "faultVariable", "activity"].Nodup := by decide
  have holds := @Slots.holds handler.slots (known ▸ distinct)
  have faultName := (holds "faultName" rfl).text
  have faultVariable := (holds "faultVariable" rfl).optionalText
  have activity := (holds "activity" rfl).text
  rw [toValue_eq, read?, Slots.fields?_record dialect known distinct]
  exact bind_of_some rfl <| bind_of_some faultName <| bind_of_some faultVariable <|
    bind_of_some activity rfl

end FaultHandler

namespace EventHandler

/-- What is written for the fields of an event handler. -/
def slots (handler : EventHandler) : Slots :=
  [("event", some (.text handler.event)), ("activity", some (.text handler.activity))]

/-- The value of a branch is the record of its slots. -/
theorem toValue_eq (handler : EventHandler) : handler.toValue = .record handler.slots.entries := rfl

/-- A branch is read back from its value. -/
theorem read?_toValue (dialect : Dialect) (handler : EventHandler) :
    read? dialect handler.toValue.document = some handler := by
  have known : handler.slots.map Prod.fst = ["event", "activity"] := rfl
  have distinct : ["event", "activity"].Nodup := by decide
  have holds := @Slots.holds handler.slots (known ▸ distinct)
  have event := (holds "event" rfl).text
  have activity := (holds "activity" rfl).text
  rw [toValue_eq, read?, Slots.fields?_record dialect known distinct]
  exact bind_of_some rfl <| bind_of_some event <| bind_of_some activity rfl

end EventHandler

/-! ## Copies -/

namespace CopySource

/-- A source is within the limits as far as its literal is. -/
theorem exists_value {source : CopySource} (readable : source.IsReadable) :
    ∃ value, source.toValue.document.valueWithin? containers = some value := by
  cases source with
  | literal held =>
      obtain ⟨stored, depth⟩ := readable
      have shallow : containers + (toValue (.literal held)).document.depth ≤ Document.maximumDepth := by
        simp only [toValue, Value.document, Value.documentEntries, Document.depth, Document.depthOfEntries]
        omega
      rw [Document.valueWithin?, if_pos shallow]
      simp [toValue, Value.document, Value.documentEntries, Document.value?, Document.entries?, Scalar.value?,
        Scalar.resolve, Document.value?_document stored]
  | stored path => exact ⟨_, rfl⟩
  | expression text => exact ⟨_, rfl⟩

/-- The type of a source and the field that counts are read from the mapping of the two. -/
theorem read?_of_fields {kind name : String} {content : Document} {value : Value} (different : name ≠ "type")
    (fieldName : fieldName? kind = some name)
    (within : Document.valueWithin? containers
      (.mapping [(some "type", .scalar (.text (some kind))), (some name, content)]) = some value) :
    read? (.mapping [(some "type", .scalar (.text (some kind))), (some name, content)]) =
      ofField? kind content := by
  rw [read?, within]
  simp [Document.fields?, Document.keyed?, Document.isRepetitionFree, Fields.find?, different,
    Ne.symm different, Document.text?, Scalar.text?, fieldName]

/-- A source is read back from its value: a literal from under its own name, and so on. -/
theorem read?_toValue {source : CopySource} (readable : source.IsReadable) :
    read? source.toValue.document = some source := by
  obtain ⟨value, within⟩ := exists_value readable
  cases source with
  | literal held =>
      have made : ofField? "literal" held.document = some (.literal held) := by
        simp [ofField?, Document.value?_document readable.stored]
      exact (read?_of_fields (by decide) rfl within).trans made
  | stored path => exact read?_of_fields (by decide) rfl within
  | expression text => exact read?_of_fields (by decide) rfl within

end CopySource

namespace Copy

/-- What is written for the fields of a copy. -/
def slots (copy : Copy) : Slots :=
  [("from", some copy.source.toValue), ("to", some (.text copy.target))]

/-- The value of a copy is the record of its slots. -/
theorem toValue_eq (copy : Copy) : copy.toValue = .record copy.slots.entries := rfl

/-- A copy is read back from its value. -/
theorem read?_toValue (dialect : Dialect) {copy : Copy} (readable : copy.source.IsReadable) :
    read? dialect copy.toValue.document = some copy := by
  have known : copy.slots.map Prod.fst = ["from", "to"] := rfl
  have distinct : ["from", "to"].Nodup := by decide
  have holds := @Slots.holds copy.slots (known ▸ distinct)
  have source := (holds "from" rfl).required (CopySource.read?_toValue readable)
  have target := (holds "to" rfl).text
  rw [toValue_eq, read?, Slots.fields?_record dialect known distinct]
  exact bind_of_some rfl <| bind_of_some source <| bind_of_some target rfl

end Copy

/-! ## Bounds, durations and kinds -/

/-- A bound is read back, whether it is a number or a text. -/
theorem LoopBound.loopBound?_toValue {bound : LoopBound} (readable : bound.IsReadable) :
    bound.toValue.document.loopBound? = some bound := by
  cases bound with
  | fixed value =>
      have signed : Word.isSigned value = true := readable
      simp [toValue, Value.integer, Value.document, Document.loopBound?, Scalar.resolve, signed]
  | expression text => rfl

/-- A bound is never written as null, which would stand for no bound. -/
theorem LoopBound.isNull_toValue (bound : LoopBound) : bound.toValue.document.isNull = false := by
  cases bound <;> rfl

/-- A duration is never written as null, which would stand for no duration. -/
theorem WaitDuration.isNull_toValue (duration : WaitDuration) : duration.toValue.document.isNull = false := by
  cases duration <;> rfl

/-- A duration is read back, whether it is a count or a text. -/
theorem WaitDuration.waitDuration?_toValue (duration : WaitDuration) :
    duration.toValue.document.waitDuration? = some duration := by
  cases duration with
  | milliseconds count =>
      simp [toValue, Value.integer, Value.document, Document.waitDuration?, Scalar.resolve]
  | text written => rfl

/-- A deadline is read back from the text that it is written as. -/
theorem Timestamp.timestamp?_text {timestamp : Timestamp} (spelled : timestamp.IsSpelled) :
    (Value.text timestamp.text).document.timestamp? = some timestamp := by
  rw [Value.document, Document.timestamp?, Document.text?, Scalar.text?, Option.bind_some, read?_text spelled]

/-- A kind is read back from its name. -/
theorem ActivityKind.read?_name (dialect : Dialect) (kind : ActivityKind) :
    read? dialect (Value.text kind.name).document = some kind :=
  congrArg some (ofName_name kind)

/-! ## Variables -/

namespace VariableDeclaration

/-- What is written for the fields of a declared variable. -/
def slots (declared : VariableDeclaration) : Slots :=
  [("name", some (.text declared.name)), ("default", some declared.initial)]

/-- The value of a declaration is the record of its slots. -/
theorem toValue_eq (declared : VariableDeclaration) : declared.toValue = .record declared.slots.entries := rfl

/-- A declaration is read back from its value. -/
theorem read?_toValue (dialect : Dialect) {declared : VariableDeclaration} (readable : declared.IsReadable) :
    read? dialect declared.toValue.document = some declared := by
  have known : declared.slots.map Prod.fst = ["name", "default"] := rfl
  have distinct : ["name", "default"].Nodup := by decide
  have holds := @Slots.holds declared.slots (known ▸ distinct)
  have name := (holds "name" rfl).text
  have initial := (holds "default" rfl).withDefault .null (Document.valueWithin?_document readable)
  rw [toValue_eq, read?, Slots.fields?_record dialect known distinct]
  exact bind_of_some rfl <| bind_of_some name <| bind_of_some initial rfl

end VariableDeclaration

/-! ## Activities -/

namespace Activity

/-- What is written for the fields of an activity. -/
def slots (activity : Activity) : Slots :=
  [("id", some (.text activity.id)), ("type", some (.text activity.kind.name)),
    ("name", activity.name.map .text),
    ("children", listSlot (activity.children.map .text)), ("condition", activity.condition.map .text),
    ("elseActivity", activity.elseActivity.map .text),
    ("copies", listSlot (activity.copies.map Copy.toValue)),
    ("faultName", activity.faultName.map .text), ("faultVariable", activity.faultVariable.map .text),
    ("eventHandlers", listSlot (activity.eventHandlers.map EventHandler.toValue)),
    ("faultHandlers", listSlot (activity.faultHandlers.map FaultHandler.toValue)),
    ("compensationHandler", activity.compensationHandler.map .text),
    ("counterVariable", activity.counterVariable.map .text),
    ("startValue", activity.startValue.map LoopBound.toValue),
    ("endValue", activity.endValue.map LoopBound.toValue),
    ("parallel", if activity.parallel then some (.boolean true) else none),
    ("partnerLink", activity.partnerLink.map .text), ("operation", activity.operation.map .text),
    ("inputVariable", activity.inputVariable.map .text),
    ("outputVariable", activity.outputVariable.map .text),
    ("duration", activity.duration.map WaitDuration.toValue),
    ("deadline", activity.deadline.map fun deadline => .text deadline.text),
    ("target", activity.target.map .text)]

/-- The value of an activity is the record of its slots. -/
theorem toValue_eq (activity : Activity) : activity.toValue = .record activity.slots.entries := by
  have parallel : optionalEntry "parallel" (if activity.parallel then some (.boolean true) else none) =
      if activity.parallel then [("parallel", .boolean true)] else [] := by
    cases activity.parallel <;> rfl
  simp [toValue, slots, Slots.entries, textEntry, optionalEntry_listSlot, parallel, Function.comp_def]
  rfl

/-- An activity is read back from its value, field by field. -/
theorem read?_toValue (dialect : Dialect) {activity : Activity} (readable : activity.IsReadable) :
    read? dialect activity.toValue.document = some activity := by
  have known : activity.slots.map Prod.fst = fieldNames := rfl
  have distinct : fieldNames.Nodup := by decide
  have holds := @Slots.holds activity.slots (known ▸ distinct)
  have id := (holds "id" rfl).text
  have kind := (holds "type" rfl).required (activity.kind.read?_name dialect)
  have name := (holds "name" rfl).optionalText
  have children := @Fields.Holds.list _ Document.text? _ _ _ _ (holds "children" rfl) fun _ _ => rfl
  have condition := (holds "condition" rfl).optionalText
  have elseActivity := (holds "elseActivity" rfl).optionalText
  have copies := (holds "copies" rfl).list fun copy within =>
    Copy.read?_toValue dialect (readable.copies copy within)
  have faultName := (holds "faultName" rfl).optionalText
  have faultVariable := (holds "faultVariable" rfl).optionalText
  have eventHandlers := (holds "eventHandlers" rfl).list fun handler _ => handler.read?_toValue dialect
  have faultHandlers := (holds "faultHandlers" rfl).list fun handler _ => handler.read?_toValue dialect
  have compensationHandler := (holds "compensationHandler" rfl).optionalText
  have counterVariable := (holds "counterVariable" rfl).optionalText
  have startValue := (holds "startValue" rfl).optional LoopBound.isNull_toValue fun bound within =>
    LoopBound.loopBound?_toValue (readable.startValue bound within)
  have endValue := (holds "endValue" rfl).optional LoopBound.isNull_toValue fun bound within =>
    LoopBound.loopBound?_toValue (readable.endValue bound within)
  have parallel := (holds "parallel" rfl).flag
  have partnerLink := (holds "partnerLink" rfl).optionalText
  have operation := (holds "operation" rfl).optionalText
  have inputVariable := (holds "inputVariable" rfl).optionalText
  have outputVariable := (holds "outputVariable" rfl).optionalText
  have duration := (holds "duration" rfl).optional WaitDuration.isNull_toValue fun duration _ =>
    duration.waitDuration?_toValue
  have deadline := (holds "deadline" rfl).optional (fun _ => rfl) fun deadline within =>
    Timestamp.timestamp?_text (readable.deadline deadline within)
  have target := (holds "target" rfl).optionalText
  rw [toValue_eq, read?, Slots.fields?_record dialect known distinct]
  exact bind_of_some rfl <| bind_of_some id <| bind_of_some kind <| bind_of_some name <|
    bind_of_some children <| bind_of_some condition <| bind_of_some elseActivity <| bind_of_some copies <|
    bind_of_some faultName <| bind_of_some faultVariable <| bind_of_some eventHandlers <|
    bind_of_some faultHandlers <| bind_of_some compensationHandler <| bind_of_some counterVariable <|
    bind_of_some startValue <| bind_of_some endValue <| bind_of_some parallel <|
    bind_of_some partnerLink <| bind_of_some operation <| bind_of_some inputVariable <|
    bind_of_some outputVariable <| bind_of_some duration <| bind_of_some deadline <|
    bind_of_some target rfl

end Activity

/-! ## Activities under ids -/

namespace Definition

variable {activity : Activity} {activities arranged : List Activity}

/-- An activity takes the place of the one that has its id, or comes last. -/
theorem ids_place (activity : Activity) (activities : List Activity) :
    (place activity activities).map Activity.id =
      if activity.id ∈ activities.map Activity.id then activities.map Activity.id
      else activities.map Activity.id ++ [activity.id] := by
  induction activities with
  | nil => rfl
  | cons present rest inductionHypothesis =>
      by_cases same : present.id = activity.id
      · simp [place, same]
      · rw [place, if_neg same, List.map_cons, inductionHypothesis, List.map_cons]
        by_cases found : activity.id ∈ rest.map Activity.id
        · rw [if_pos found, if_pos (List.mem_cons_of_mem _ found)]
        · have fresh : activity.id ∉ present.id :: rest.map Activity.id := by
            rw [List.mem_cons, not_or]
            exact ⟨Ne.symm same, found⟩
          rw [if_neg found, if_neg fresh, List.cons_append]

/-- Placing an activity brings no other one in. -/
theorem mem_of_mem_place {other : Activity} (within : other ∈ place activity activities) :
    other = activity ∨ other ∈ activities := by
  induction activities with
  | nil => exact .inl (List.mem_singleton.mp within)
  | cons present rest inductionHypothesis =>
      rw [place] at within
      split at within
      · exact (List.mem_cons.mp within).imp_right (List.mem_cons_of_mem _)
      · rcases List.mem_cons.mp within with rfl | within
        · exact .inr List.mem_cons_self
        · exact (inductionHypothesis within).imp_right (List.mem_cons_of_mem _)

/-- An activity with an id of its own is put at the end. -/
theorem place_last (fresh : activity.id ∉ activities.map Activity.id) :
    place activity activities = activities ++ [activity] := by
  induction activities with
  | nil => rfl
  | cons present rest inductionHypothesis =>
      rw [List.map_cons, List.mem_cons, not_or] at fresh
      rw [place, if_neg (Ne.symm fresh.1), inductionHypothesis fresh.2, List.cons_append]

/-- Ids stay distinct where an activity is placed. -/
theorem nodup_place (distinct : (activities.map Activity.id).Nodup) :
    ((place activity activities).map Activity.id).Nodup := by
  rw [ids_place]
  split
  · exact distinct
  · next fresh =>
      rw [← List.concat_eq_append]
      exact distinct.concat fresh

/-- Arranged activities have different ids. -/
theorem nodup_arrange (activities : List Activity) : ((arrange activities).map Activity.id).Nodup := by
  have placed : ∀ {arranged : List Activity}, (arranged.map Activity.id).Nodup →
      ((activities.foldl (fun arranged activity => place activity arranged) arranged).map
        Activity.id).Nodup := by
    induction activities with
    | nil => exact fun distinct => distinct
    | cons activity activities inductionHypothesis =>
        exact fun distinct => inductionHypothesis (nodup_place distinct)
  exact placed List.nodup_nil

/-- Arranging activities brings in none. -/
theorem mem_of_mem_arrange (within : activity ∈ arrange activities) : activity ∈ activities := by
  have placed : ∀ {arranged : List Activity},
      activity ∈ activities.foldl (fun arranged activity => place activity arranged) arranged →
        activity ∈ activities ∨ activity ∈ arranged := by
    clear within
    induction activities with
    | nil => exact .inr
    | cons first activities inductionHypothesis =>
        intro arranged within
        rcases inductionHypothesis within with later | within
        · exact .inl (List.mem_cons_of_mem _ later)
        · rcases mem_of_mem_place within with rfl | within
          · exact .inl List.mem_cons_self
          · exact .inr within
  exact (placed within).resolve_right List.not_mem_nil

/-- Activities with different ids are arranged already. -/
theorem arrange_of_nodup (distinct : (activities.map Activity.id).Nodup) :
    arrange activities = activities := by
  have placed : ∀ {arranged : List Activity}, ((arranged ++ activities).map Activity.id).Nodup →
      activities.foldl (fun arranged activity => place activity arranged) arranged =
        arranged ++ activities := by
    clear distinct
    induction activities with
    | nil => exact fun _ => (List.append_nil _).symm
    | cons activity activities inductionHypothesis =>
        intro arranged distinct
        have fresh : activity.id ∉ arranged.map Activity.id := by
          rw [List.map_append, List.nodup_append] at distinct
          exact fun within => distinct.2.2 _ within _ List.mem_cons_self rfl
        rw [List.append_cons] at distinct ⊢
        rw [List.foldl_cons, place_last fresh, inductionHypothesis distinct]
  exact placed distinct

/-! ## Definitions -/

/-- What is written for the fields of a definition. -/
def slots (definition : Definition) : Slots :=
  [("id", some (.text definition.id)), ("name", some (.text definition.name)),
    ("version", some (.text definition.version)),
    ("activities", some (.list (definition.activities.map Activity.toValue))),
    ("rootActivityId", some (.text definition.rootActivityId)),
    ("faultHandlers", listSlot (definition.faultHandlers.map FaultHandler.toValue)),
    ("compensationHandler", definition.compensationHandler.map .text),
    ("variables", listSlot (definition.declarations.map VariableDeclaration.toValue)),
    ("enabled", some (.boolean definition.enabled))]

/-- The value of a definition is the record of its slots. -/
theorem toValue_eq (definition : Definition) : definition.toValue = .record definition.slots.entries := by
  simp [toValue, slots, Slots.entries, textEntry, optionalEntry_listSlot]
  rfl

/-- A definition is read back from its value. -/
theorem read?_toValue (dialect : Dialect) {definition : Definition} (readable : definition.IsReadable) :
    read? dialect definition.toValue.document = some definition := by
  have known : definition.slots.map Prod.fst = fieldNames := rfl
  have distinct : fieldNames.Nodup := by decide
  have holds := @Slots.holds definition.slots (known ▸ distinct)
  have id := (holds "id" rfl).text
  have name := (holds "name" rfl).text
  have version := @Fields.Holds.withDefault _ Document.text? _ _ _ _ (holds "version" rfl) defaultVersion rfl
  have activities : definition.slots.fields.required
      (fun document => document.items?.bind (Fields.all (Activity.read? dialect))) "activities" =
        some definition.activities :=
    (holds "activities" rfl).required <| Fields.all_documents fun activity within =>
      Activity.read?_toValue dialect (readable.activities activity within)
  have arranged : (definition.slots.fields.required
      (fun document => document.items?.bind (Fields.all (Activity.read? dialect))) "activities").map arrange =
        some definition.activities := by
    rw [activities, Option.map_some, arrange_of_nodup readable.distinct]
  have rootActivityId := (holds "rootActivityId" rfl).text
  have faultHandlers := (holds "faultHandlers" rfl).list fun handler _ => handler.read?_toValue dialect
  have compensationHandler := (holds "compensationHandler" rfl).optionalText
  have declarations := (holds "variables" rfl).list fun declared within =>
    VariableDeclaration.read?_toValue dialect (readable.declarations declared within)
  have enabled := @Fields.Holds.withDefault _ Document.boolean? _ _ _ _ (holds "enabled" rfl) true rfl
  rw [toValue_eq, read?, Slots.fields?_record dialect known distinct]
  exact bind_of_some rfl <| bind_of_some id <| bind_of_some name <| bind_of_some version <|
    bind_of_some arranged <| bind_of_some rootActivityId <| bind_of_some faultHandlers <|
    bind_of_some compensationHandler <| bind_of_some declarations <| bind_of_some enabled rfl

end Definition

/-! ## Spelling -/

/-- A handler has a spelling. -/
theorem FaultHandler.isSpelled_toValue (handler : FaultHandler) : handler.toValue.IsSpelled := by
  rw [toValue_eq]
  exact Slots.AreSpelled.record (.text <| .optionalText <| .text .nil)

/-- A branch has a spelling. -/
theorem EventHandler.isSpelled_toValue (handler : EventHandler) : handler.toValue.IsSpelled :=
  Slots.AreSpelled.record (.text <| .text .nil)

/-- A source has a spelling, if its literal has one. -/
theorem CopySource.isSpelled_toValue {source : CopySource} (readable : source.IsReadable) :
    source.toValue.IsSpelled := by
  cases source with
  | literal value => exact Slots.AreSpelled.record (.text <| .required readable.stored.isSpelled .nil)
  | stored path => exact Slots.AreSpelled.record (.text <| .text .nil)
  | expression text => exact Slots.AreSpelled.record (.text <| .text .nil)

/-- A copy has a spelling, if its source has one. -/
theorem Copy.isSpelled_toValue {copy : Copy} (readable : copy.source.IsReadable) : copy.toValue.IsSpelled :=
  Slots.AreSpelled.record (.required (CopySource.isSpelled_toValue readable) <| .text .nil)

/-- A bound that fits a signed word has a spelling. -/
theorem LoopBound.isSpelled_toValue {bound : LoopBound} (readable : bound.IsReadable) :
    bound.toValue.IsSpelled := by
  cases bound with
  | fixed value =>
      have signed := Word.isSigned_iff.mp readable
      refine .number ⟨?_, ?_⟩ <;> simp only [Word.signedLimit, Word.count] at signed ⊢ <;> omega
  | expression text => exact .text text

/-- A duration that fits a word has a spelling. -/
theorem WaitDuration.isSpelled_toValue {duration : WaitDuration} (readable : duration.IsReadable) :
    duration.toValue.IsSpelled := by
  cases duration with
  | milliseconds count =>
      have fits : count < Word.count := readable
      refine .number ⟨?_, ?_⟩ <;> simp only [Word.signedLimit, Word.count] at fits ⊢ <;> omega
  | text written => exact .text written

/-- A declaration has a spelling, if its default has one. -/
theorem VariableDeclaration.isSpelled_toValue {declared : VariableDeclaration}
    (readable : declared.IsReadable) : declared.toValue.IsSpelled :=
  Slots.AreSpelled.record (.text <| .required readable.stored.isSpelled .nil)

/-- An activity has a spelling, if all that it holds has one. -/
theorem Activity.isSpelled_toValue {activity : Activity} (readable : activity.IsReadable) :
    activity.toValue.IsSpelled := by
  have parallel : ∀ value ∈ (if activity.parallel then some (.boolean true) else none),
      Value.IsSpelled value := by
    cases activity.parallel <;> rintro _ ⟨⟩
    exact .boolean true
  rw [toValue_eq]
  exact Slots.AreSpelled.record <|
    .text <| .text <| .optionalText <| .list (fun child _ => .text child) <| .optionalText <| .optionalText <|
    .list (fun copy within => Copy.isSpelled_toValue (readable.copies copy within)) <| .optionalText <|
    .optionalText <| .list (fun handler _ => handler.isSpelled_toValue) <|
    .list (fun handler _ => handler.isSpelled_toValue) <| .optionalText <| .optionalText <|
    .optional (fun bound within => LoopBound.isSpelled_toValue (readable.startValue bound within)) <|
    .optional (fun bound within => LoopBound.isSpelled_toValue (readable.endValue bound within)) <|
    .cons parallel <| .optionalText <| .optionalText <| .optionalText <| .optionalText <|
    .optional (fun duration within => WaitDuration.isSpelled_toValue (readable.duration duration within)) <|
    .optional (fun deadline _ => .text deadline.text) <| .optionalText .nil

/-- A definition has a spelling, if all that it holds has one. -/
theorem Definition.isSpelled_toValue {definition : Definition} (readable : definition.IsReadable) :
    definition.toValue.IsSpelled := by
  rw [toValue_eq]
  exact Slots.AreSpelled.record <|
    .text <| .text <| .text <|
    .required (Slots.isSpelled_list fun activity within =>
      Activity.isSpelled_toValue (readable.activities activity within)) <|
    .text <| .list (fun handler _ => handler.isSpelled_toValue) <| .optionalText <|
    .list (fun declared within =>
      VariableDeclaration.isSpelled_toValue (readable.declarations declared within)) <|
    .required (.boolean definition.enabled) .nil

/-! ## What was read -/

section Read

variable {document : Document} {dialect : Dialect}

/-- Only bounds are read that can be read back: numbers fit a signed word. -/
theorem LoopBound.isReadable_of_loopBound? {bound : LoopBound} (read : document.loopBound? = some bound) :
    bound.IsReadable := by
  cases document with
  | scalar content =>
      unfold Document.loopBound? at read
      dsimp only at read
      split at read
      · split at read
        · next signed =>
            cases read
            exact signed
        · cases read
      · cases read
        trivial
      · cases read
  | sequence => cases read
  | mapping => cases read

/-- A scalar of JSON means what it says. -/
theorem Scalar.resolve_of_isJson {content : Scalar} (spelled : content.IsJson) :
    content.resolve = content := by
  cases content with
  | plain => exact spelled.elim
  | _ => rfl

/-- Only durations are read from JSON that can be read back: counts fit a word. -/
theorem WaitDuration.isReadable_of_waitDuration? {duration : WaitDuration} (spelled : document.IsJson)
    (read : document.waitDuration? = some duration) : duration.IsReadable := by
  cases spelled with
  | @scalar content spelled =>
      unfold Document.waitDuration? at read
      dsimp only at read
      rw [Scalar.resolve_of_isJson spelled] at read
      split at read
      · next value =>
          split at read
          · cases read
            have stored : Number.IsStored (.integer value) := spelled _ rfl
            have below := stored.2
            change value.toNat < Word.count
            omega
          · cases read
      · cases read
        trivial
      · cases read
  | sequence => cases read
  | mapping => cases read

/-- Only deadlines are read that can be spelled. -/
theorem Timestamp.isSpelled_of_timestamp? {timestamp : Timestamp}
    (read : document.timestamp? = some timestamp) : timestamp.IsSpelled := by
  obtain ⟨written, -, found⟩ := Option.bind_eq_some_iff.mp read
  exact isSpelled_of_read? found

/-- The source that a field gives can be read back. The containers around the field count for the depth of what
is in it. -/
theorem CopySource.isReadable_of_ofField? {source : CopySource} {kind : String} (spelled : document.IsJson)
    (shallow : containers + 1 + document.depth ≤ Document.maximumDepth)
    (made : ofField? kind document = some source) : source.IsReadable := by
  unfold ofField? at made
  split_ifs at made
  · obtain ⟨value, found, rfl⟩ := Option.map_eq_some_iff.mp made
    obtain ⟨stored, depth⟩ := spelled.isStored found
    exact ⟨stored, by omega⟩
  · obtain ⟨path, -, rfl⟩ := Option.map_eq_some_iff.mp made
    trivial
  · obtain ⟨text, -, rfl⟩ := Option.map_eq_some_iff.mp made
    trivial

/-- Only sources are read that can be read back. -/
theorem CopySource.isReadable_of_read? {source : CopySource} (spelled : document.IsJson)
    (read : read? document = some source) : source.IsReadable := by
  obtain ⟨value, within, read⟩ := Option.bind_eq_some_iff.mp read
  have shallow : containers + document.depth ≤ Document.maximumDepth := by
    unfold Document.valueWithin? at within
    split at within
    · assumption
    · cases within
  -- The list and the mapping differ in where the field that counts stands, and not in what it may be.
  have ofPart : ∀ {part : Document} {kind : String}, part ∈ document.parts →
      ofField? kind part = some source → source.IsReadable := by
    intro part kind inside made
    have depth := Document.depth_of_mem_parts inside
    exact isReadable_of_ofField? (spelled.of_mem_parts inside) (by omega) made
  split at read
  · next kind content =>
      obtain ⟨written, -, made⟩ := Option.bind_eq_some_iff.mp read
      exact ofPart (List.mem_cons_of_mem _ List.mem_cons_self) made
  · next entries =>
      obtain ⟨_, -, read⟩ := Option.bind_eq_some_iff.mp read
      obtain ⟨kind, -, read⟩ := Option.bind_eq_some_iff.mp read
      obtain ⟨name, -, read⟩ := Option.bind_eq_some_iff.mp read
      obtain ⟨content, found, made⟩ := Option.bind_eq_some_iff.mp read
      obtain ⟨fields, known, found⟩ := Option.bind_eq_some_iff.mp found
      obtain ⟨field, present, rfl⟩ := Fields.exists_of_find? found
      exact ofPart (Document.mem_parts_of_fields? known field present) made
  · cases read

/-- Only copies are read that can be read back. -/
theorem Copy.isReadable_of_read? {copy : Copy} (spelled : document.IsJson)
    (read : read? dialect document = some copy) : copy.source.IsReadable := by
  obtain ⟨fields, found, read⟩ := Option.bind_eq_some_iff.mp read
  have each := spelled.fields found
  obtain ⟨source, sourceFound, read⟩ := Option.bind_eq_some_iff.mp read
  obtain ⟨target, -, read⟩ := Option.bind_eq_some_iff.mp read
  cases read
  exact Fields.of_required each CopySource.isReadable_of_read? sourceFound

/-- Only declarations are read that can be read back. -/
theorem VariableDeclaration.isReadable_of_read? {declared : VariableDeclaration} (spelled : document.IsJson)
    (read : read? dialect document = some declared) : declared.IsReadable := by
  obtain ⟨fields, found, read⟩ := Option.bind_eq_some_iff.mp read
  have each := spelled.fields found
  obtain ⟨name, -, read⟩ := Option.bind_eq_some_iff.mp read
  obtain ⟨initial, initialFound, read⟩ := Option.bind_eq_some_iff.mp read
  cases read
  exact Fields.of_withDefault each Document.fits_of_valueWithin? ⟨.null, by decide⟩ initialFound

/-- Only activities are read that can be read back. -/
theorem Activity.isReadable_of_read? {activity : Activity} (spelled : document.IsJson)
    (read : read? dialect document = some activity) : activity.IsReadable := by
  obtain ⟨fields, found, read⟩ := Option.bind_eq_some_iff.mp read
  have each := spelled.fields found
  -- The fields that are passed over hold texts, kinds and flags, and all of these can be written.
  iterate 6 obtain ⟨_, -, read⟩ := Option.bind_eq_some_iff.mp read
  obtain ⟨copies, copiesFound, read⟩ := Option.bind_eq_some_iff.mp read
  iterate 6 obtain ⟨_, -, read⟩ := Option.bind_eq_some_iff.mp read
  obtain ⟨startValue, startFound, read⟩ := Option.bind_eq_some_iff.mp read
  obtain ⟨endValue, endFound, read⟩ := Option.bind_eq_some_iff.mp read
  iterate 5 obtain ⟨_, -, read⟩ := Option.bind_eq_some_iff.mp read
  obtain ⟨duration, durationFound, read⟩ := Option.bind_eq_some_iff.mp read
  obtain ⟨deadline, deadlineFound, read⟩ := Option.bind_eq_some_iff.mp read
  obtain ⟨target, -, read⟩ := Option.bind_eq_some_iff.mp read
  cases read
  exact {
    copies := Fields.of_list each Copy.isReadable_of_read? copiesFound
    startValue := Fields.of_optional each (fun _ => LoopBound.isReadable_of_loopBound?) startFound
    endValue := Fields.of_optional each (fun _ => LoopBound.isReadable_of_loopBound?) endFound
    duration := Fields.of_optional each WaitDuration.isReadable_of_waitDuration? durationFound
    deadline := Fields.of_optional each (fun _ => Timestamp.isSpelled_of_timestamp?) deadlineFound }

/-- Only definitions are read that can be read back. -/
theorem Definition.isReadable_of_read? {definition : Definition} (spelled : document.IsJson)
    (read : read? dialect document = some definition) : definition.IsReadable := by
  obtain ⟨fields, found, read⟩ := Option.bind_eq_some_iff.mp read
  have each := spelled.fields found
  iterate 3 obtain ⟨_, -, read⟩ := Option.bind_eq_some_iff.mp read
  obtain ⟨arranged, activitiesFound, read⟩ := Option.bind_eq_some_iff.mp read
  iterate 3 obtain ⟨_, -, read⟩ := Option.bind_eq_some_iff.mp read
  obtain ⟨declarations, declarationsFound, read⟩ := Option.bind_eq_some_iff.mp read
  obtain ⟨enabled, -, read⟩ := Option.bind_eq_some_iff.mp read
  cases read
  obtain ⟨activities, listed, rfl⟩ := Option.map_eq_some_iff.mp activitiesFound
  have readable := @Fields.of_required _ _ (fun activities => ∀ activity ∈ activities, activity.IsReadable)
    _ _ each (Fields.of_items Activity.isReadable_of_read?) _ listed
  exact {
    activities := fun activity within => readable activity (mem_of_mem_arrange within)
    distinct := nodup_arrange activities
    declarations := Fields.of_list each VariableDeclaration.isReadable_of_read? declarationsFound }

end Read

namespace Definition

variable {text : String} {definition : Definition}

/-- What comes of a JSON text can be read back. -/
theorem isReadable_of_ofText (read : ofText .json text = .ok definition) : definition.IsReadable := by
  unfold ofText at read
  dsimp only at read
  split at read
  · next held found =>
      cases read
      obtain ⟨document, spelled, found⟩ := Option.bind_eq_some_iff.mp found
      exact isReadable_of_read? (Json.isJson_of_read? spelled) found
  · cases read

/-- Every definition that can be read at all is read from its own JSON. -/
theorem ofText_toJson_of_isReadable (readable : definition.IsReadable) :
    ofText .json definition.toJson = .ok definition := by
  have document : Json.read? definition.toJson.toList = some definition.toValue.document := by
    rw [toJson, Value.toJson, String.toList_ofList, Json.read?_json (isSpelled_toValue readable)]
  unfold ofText
  dsimp only
  rw [document, Option.bind_some, read?_toValue .json readable]

/-- A definition that was read from JSON is written as JSON that is read as the same definition. -/
theorem ofText_toJson (read : ofText .json text = .ok definition) :
    ofText .json definition.toJson = .ok definition :=
  ofText_toJson_of_isReadable (isReadable_of_ofText read)

/-- What a part of a result is, is a part of what the result has come to. -/
theorem exists_of_toOption {α : Type} {held : α} {part : Definition → α} {result : Except Failure Definition}
    (found : result.toOption.map part = some held) :
    ∃ definition, result = .ok definition ∧ part definition = held := by
  cases result with
  | error failure => cases found
  | ok definition => exact ⟨definition, rfl, Option.some.inj found⟩

/-- Of two activities under one id the second one stays, at the place of the first. -/
theorem ofText_toJson_repeated :
    ∃ definition,
      ofText .json r#"["p","P","1.0",[["a","empty"],["w","wait"],["a","assign",null,[],null,null,
        [[["literal",[1,-2.5]],"n"]]]],"a"]"# = .ok definition ∧
      definition.activities.map Activity.id = ["a", "w"] ∧ ofText .json definition.toJson = .ok definition :=
  (exists_of_toOption (by decide +kernel)).imp fun _ reads => ⟨reads.1, reads.2, ofText_toJson reads.1⟩

end Definition

end Orchestration
