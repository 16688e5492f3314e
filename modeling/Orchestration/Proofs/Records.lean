import Orchestration.Execution.Step
import Orchestration.Proofs.Contract

/-!
# Records of what was done

What has been done of a task is recorded as a tree: the actions that were performed, the executions of
activities with what was done inside of them, and branches side by side. The tree has what the order of
moves does not show when branches take turns: which execution an action belongs to, and what stood
directly before it there.

`Task.Unfolds` says which records a task can have, whatever its actions reply. `Record.Grows` says what
one move adds, and where.
-/

namespace Orchestration

/-- Something that was done. -/
inductive Record where
  /-- An action was performed, with a reply. -/
  | performed (action : Action) (reply : action.Reply)
  /-- An activity was executed. One that has not ended yet has no result. -/
  | executed (activity : Activity) (role : Role) (within : List Record) (result? : Option Result)
  /-- Branches were run side by side, each with a result once it has ended. -/
  | branched (sides : List (List Record × Option Result))

namespace Task

/-- That so much has been done of a task, and that it has ended with a result if there is one. -/
inductive Unfolds (program : Program) : Task → List Record → Option Result → Prop where
  | rest {task : Task} : Unfolds program task [] none
  | done {result : Result} : Unfolds program (.done result) [] (some result)
  | act {action : Action} {next : action.Reply → Task} {reply : action.Reply}
      {records : List Record} {result? : Option Result}
      (continues : Unfolds program (next reply) records result?) :
      Unfolds program (.act action next) (.performed action reply :: records) result?
  | inside {activity : Activity} {role : Role} {next : Result → Task} {within : List Record}
      (begun : Unfolds program (program.body activity) within none) :
      Unfolds program (.call activity role next) [.executed activity role within none] none
  | call {activity : Activity} {role : Role} {next : Result → Task} {within records : List Record}
      {result : Result} {result? : Option Result}
      (ended : Unfolds program (program.body activity) within (some result))
      (continues : Unfolds program (next result) records result?) :
      Unfolds program (.call activity role next)
        (.executed activity role within (some result) :: records) result?
  | wait {duration : Duration} {next : Task} {records : List Record} {result? : Option Result}
      (continues : Unfolds program next records result?) :
      Unfolds program (.wait duration next) records result?
  | aside {branches : List Task} {join : List Result → Task}
      {sides : List (List Record × Option Result)} (paired : sides.length = branches.length)
      (unfold : ∀ (index : Nat) (branch : Task) (side : List Record × Option Result),
        branches[index]? = some branch → sides[index]? = some side →
          Unfolds program branch side.1 side.2) :
      Unfolds program (.fork branches join) [.branched sides] none
  | fork {branches : List Task} {join : List Result → Task}
      {sides : List (List Record × Option Result)} {results : List Result} {records : List Record}
      {result? : Option Result} (paired : sides.length = branches.length)
      (ended : sides.map Prod.snd = results.map some)
      (unfold : ∀ (index : Nat) (branch : Task) (side : List Record × Option Result),
        branches[index]? = some branch → sides[index]? = some side →
          Unfolds program branch side.1 side.2)
      (continues : Unfolds program (join results) records result?) :
      Unfolds program (.fork branches join) (.branched sides :: records) result?

namespace Unfolds

variable {program : Program} {records : List Record} {result? : Option Result}

/-- What was done of two tasks in a row was done of the first alone, or of the first to its end and then
of the second. -/
theorem of_bind {task : Task} {next : Result → Task}
    (unfolds : (task.bind next).Unfolds program records result?) :
    (task.Unfolds program records none ∧ result? = none) ∨
      ∃ first rest result, records = first ++ rest ∧ task.Unfolds program first (some result) ∧
        (next result).Unfolds program rest result? := by
  induction task using Task.rec (motive_2 := fun _ => True) generalizing records with
  | done result => exact .inr ⟨[], records, result, rfl, .done, unfolds⟩
  | act action continuation inductionHypothesis =>
      cases unfolds with
      | rest => exact .inl ⟨.rest, rfl⟩
      | act continues =>
          rcases inductionHypothesis _ continues with ⟨first, open_⟩ |
            ⟨first, rest, result, rfl, firstUnfolds, restUnfolds⟩
          · exact .inl ⟨.act first, open_⟩
          · exact .inr ⟨_ :: first, rest, result, rfl, .act firstUnfolds, restUnfolds⟩
  | call activity role continuation inductionHypothesis =>
      cases unfolds with
      | rest => exact .inl ⟨.rest, rfl⟩
      | inside begun => exact .inl ⟨.inside begun, rfl⟩
      | call ended continues =>
          rcases inductionHypothesis _ continues with ⟨first, open_⟩ |
            ⟨first, rest, result, rfl, firstUnfolds, restUnfolds⟩
          · exact .inl ⟨.call ended first, open_⟩
          · exact .inr ⟨_ :: first, rest, result, rfl, .call ended firstUnfolds, restUnfolds⟩
  | wait duration continuation inductionHypothesis =>
      cases unfolds with
      | rest => exact .inl ⟨.rest, rfl⟩
      | wait continues =>
          rcases inductionHypothesis continues with ⟨first, open_⟩ |
            ⟨first, rest, result, rfl, firstUnfolds, restUnfolds⟩
          · exact .inl ⟨.wait first, open_⟩
          · exact .inr ⟨first, rest, result, rfl, .wait firstUnfolds, restUnfolds⟩
  | fork branches join _ inductionHypothesis =>
      cases unfolds with
      | rest => exact .inl ⟨.rest, rfl⟩
      | aside paired unfold => exact .inl ⟨.aside paired unfold, rfl⟩
      | fork paired ended unfold continues =>
          rcases inductionHypothesis _ continues with ⟨first, open_⟩ |
            ⟨first, rest, result, rfl, firstUnfolds, restUnfolds⟩
          · exact .inl ⟨.fork paired ended unfold first, open_⟩
          · exact .inr
              ⟨_ :: first, rest, result, rfl, .fork paired ended unfold firstUnfolds, restUnfolds⟩
  | nil => trivial
  | cons => trivial

/-- Nothing is done of a task that has nothing left to do. -/
theorem of_done {result : Result} (unfolds : (Task.done result).Unfolds program records result?) :
    records = [] ∧ (result? = none ∨ result? = some result) := by
  cases unfolds with
  | rest => exact ⟨rfl, .inl rfl⟩
  | done => exact ⟨rfl, .inr rfl⟩

/-- Nothing is done of a task that has nothing left to do, and it ends with its result. -/
theorem of_ended {result ended : Result}
    (unfolds : (Task.done result).Unfolds program records (some ended)) :
    records = [] ∧ ended = result := by
  cases unfolds with
  | done => exact ⟨rfl, rfl⟩

/-- What was done of a single call, once it has ended. -/
theorem of_callOnly {activity : Activity} {role : Role} {result : Result}
    (unfolds : (Task.call activity role .done).Unfolds program records (some result)) :
    ∃ within, records = [.executed activity role within (some result)] ∧
      (program.body activity).Unfolds program within (some result) := by
  cases unfolds with
  | call ended continues =>
      obtain ⟨rfl, rfl⟩ := continues.of_ended
      exact ⟨_, rfl, ended⟩

/-- What was done of a task that has ended had been done of it before it ended. -/
theorem stopped {task : Task} {result : Result}
    (unfolds : task.Unfolds program records (some result)) : task.Unfolds program records none := by
  generalize isResult : some result = result? at unfolds
  induction unfolds with
  | rest => exact .rest
  | done => exact .rest
  | act _ inductionHypothesis => exact .act (inductionHypothesis isResult)
  | inside => cases isResult
  | call ended _ _ inductionHypothesis => exact .call ended (inductionHypothesis isResult)
  | wait _ inductionHypothesis => exact .wait (inductionHypothesis isResult)
  | aside => cases isResult
  | fork paired ended unfold _ _ inductionHypothesis =>
      exact .fork paired ended unfold (inductionHypothesis isResult)

/-- What was done inside of an execution was done of the task of its activity. -/
theorem executed {task : Task} {activity : Activity} {role : Role} {within : List Record}
    {ended? : Option Result} (unfolds : task.Unfolds program records result?)
    (present : .executed activity role within ended? ∈ records) :
    (program.body activity).Unfolds program within ended? := by
  induction unfolds with
  | rest => cases present
  | done => cases present
  | act _ inductionHypothesis =>
      exact inductionHypothesis (by simpa using present)
  | inside begun =>
      cases List.mem_singleton.mp present
      exact begun
  | call ended _ _ inductionHypothesis =>
      rcases List.mem_cons.mp present with isFirst | inRest
      · cases isFirst
        exact ended
      · exact inductionHypothesis inRest
  | wait _ inductionHypothesis => exact inductionHypothesis present
  | aside => simp at present
  | fork _ _ _ _ _ inductionHypothesis => exact inductionHypothesis (by simpa using present)

end Unfolds

end Task

namespace Record

/-- Whose records stand at one level of a tree. -/
inductive Owner where
  /-- The task of the tree. -/
  | whole
  /-- The execution of an activity. -/
  | execution (activity : Activity) (role : Role)
  /-- One of several branches. -/
  | side

/-- That records stand at one level of a tree: at the top, inside of an execution or in a branch. -/
inductive Level (records : List Record) (result? : Option Result) :
    Owner → List Record → Option Result → Prop where
  | whole : Level records result? .whole records result?
  | inside {owner : Owner} {level within : List Record} {levelResult? ended? : Option Result}
      {activity : Activity} {role : Role}
      (outer : Level records result? owner level levelResult?)
      (present : .executed activity role within ended? ∈ level) :
      Level records result? (.execution activity role) within ended?
  | aside {owner : Owner} {level : List Record} {levelResult? : Option Result}
      {sides : List (List Record × Option Result)} {side : List Record × Option Result}
      (outer : Level records result? owner level levelResult?)
      (forked : .branched sides ∈ level) (present : side ∈ sides) :
      Level records result? .side side.1 side.2

/-- Whose records they are in a tree that stands at a level of another. -/
def Owner.under : Owner → Owner → Owner
  | .whole, outer => outer
  | owner, _ => owner

/-- A level of a tree that stands at a level of another is a level of that. -/
theorem Level.nest {records within inner : List Record} {result? ended? inner? : Option Result}
    {outer owner : Owner} (outside : Level records result? outer within ended?)
    (level : Level within ended? owner inner inner?) :
    Level records result? (owner.under outer) inner inner? := by
  induction level with
  | whole => exact outside
  | inside _ present inductionHypothesis => exact .inside inductionHypothesis present
  | aside _ forked present inductionHypothesis => exact .aside inductionHypothesis forked present

/-- That something was done somewhere in a tree. -/
inductive Among (record : Record) : List Record → Prop where
  | here {records : List Record} (present : record ∈ records) : Among record records
  | inside {records within : List Record} {activity : Activity} {role : Role}
      {ended? : Option Result} (present : .executed activity role within ended? ∈ records)
      (among : Among record within) : Among record records
  | aside {records : List Record} {sides : List (List Record × Option Result)}
      {side : List Record × Option Result} (forked : .branched sides ∈ records)
      (present : side ∈ sides) (among : Among record side.1) : Among record records

/-- What one move adds to records, and where. The path has the records that stand before the place, at
each level from the outermost to the one that the place is at. -/
inductive Grows : List (List Record) → List Record → Move → List Record → Prop where
  /-- A move that is no part of the record. -/
  | silent {records : List Record} : Grows [] records .silent records
  | performed {before : List Record} {action : Action} {reply : action.Reply} :
      Grows [before] before (.performed action reply) (before ++ [.performed action reply])
  | entered {before : List Record} {call : Call} :
      Grows [before] before (.entered call) (before ++ [.executed call.activity call.role [] none])
  | left {before within : List Record} {call : Call} {result : Result} :
      Grows [before] (before ++ [.executed call.activity call.role within none]) (.left call result)
        (before ++ [.executed call.activity call.role within (some result)])
  | forked {before : List Record} {count : Nat} :
      Grows [before] before .silent (before ++ [.branched (List.replicate count ([], none))])
  | inside {path : List (List Record)} {before within later : List Record} {move : Move}
      {activity : Activity} {role : Role} (grows : Grows path within move later) :
      Grows (before :: path) (before ++ [.executed activity role within none]) move
        (before ++ [.executed activity role later none])
  | aside {path : List (List Record)} {before within later : List Record} {move : Move}
      {sides : List (List Record × Option Result)} {index : Nat} {result? : Option Result}
      (present : sides[index]? = some (within, none)) (grows : Grows path within move later) :
      Grows (before :: path) (before ++ [.branched sides]) move
        (before ++ [.branched (sides.set index (later, result?))])

/-- That moves, one after another, come to a tree. -/
inductive Keeps : List Move → List Record → Prop where
  | nil : Keeps [] []
  | grow {moves : List Move} {records later : List Record} {move : Move} {path : List (List Record)}
      (kept : Keeps moves records) (grows : Grows path records move later) :
      Keeps (moves ++ [move]) later

/-- What a move adds to records that others stand before. -/
theorem Grows.cons {path : List (List Record)} {records later : List Record} {move : Move}
    (first : Record) (grows : Grows path records move later) :
    ∃ longer, Grows longer (first :: records) move (first :: later) := by
  cases grows with
  | silent => exact ⟨_, .silent⟩
  | performed => exact ⟨_, .performed⟩
  | entered => exact ⟨_, .entered⟩
  | left => exact ⟨_, @Grows.left (first :: _) _ _ _⟩
  | forked => exact ⟨_, .forked⟩
  | inside grows => exact ⟨_, @Grows.inside _ (first :: _) _ _ _ _ _ grows⟩
  | aside present grows =>
      exact ⟨_, @Grows.aside _ (first :: _) _ _ _ _ _ _ present grows⟩

/-- What was done at a level of a tree was done in the tree. -/
theorem Level.among {record : Record} {records inner : List Record} {result? inner? : Option Result}
    {owner : Owner} (level : Level records result? owner inner inner?) (among : record.Among inner) :
    record.Among records := by
  induction level with
  | whole => exact among
  | inside _ present inductionHypothesis => exact inductionHypothesis (.inside present among)
  | aside _ forked present inductionHypothesis =>
      exact inductionHypothesis (.aside forked present among)

/-- The level of an execution belongs to an execution of the tree. -/
theorem Level.among_of_execution {records within : List Record} {result? ended? : Option Result}
    {activity : Activity} {role : Role}
    (level : Level records result? (.execution activity role) within ended?) :
    (executed activity role within ended?).Among records := by
  cases level with
  | inside outer present => exact outer.among (.here present)

/-- Nothing is among no records. -/
theorem not_among_nil (record : Record) : ¬ record.Among [] := by
  intro among
  cases among with
  | here present => cases present
  | inside present => cases present
  | aside forked => cases forked

/-- That something was done within something that was done. -/
def Contains (record : Record) : Record → Prop
  | .performed .. => False
  | .executed _ _ within _ => record.Among within
  | .branched sides => ∃ side ∈ sides, record.Among side.1

/-- What is among records in a row is among one of the two parts. -/
theorem among_append_iff {record : Record} {first second : List Record} :
    record.Among (first ++ second) ↔ record.Among first ∨ record.Among second := by
  constructor
  · intro among
    cases among with
    | here present => exact (List.mem_append.mp present).imp .here .here
    | inside present among =>
        exact (List.mem_append.mp present).imp (.inside · among) (.inside · among)
    | aside forked present among =>
        exact (List.mem_append.mp forked).imp (.aside · present among) (.aside · present among)
  · rintro (among | among)
    · cases among with
      | here present => exact .here (List.mem_append_left _ present)
      | inside present among => exact .inside (List.mem_append_left _ present) among
      | aside forked present among => exact .aside (List.mem_append_left _ forked) present among
    · cases among with
      | here present => exact .here (List.mem_append_right _ present)
      | inside present among => exact .inside (List.mem_append_right _ present) among
      | aside forked present among => exact .aside (List.mem_append_right _ forked) present among

/-- What is among a single record is that record, or is within it. -/
theorem among_singleton_iff {record only : Record} :
    record.Among [only] ↔ record = only ∨ record.Contains only := by
  constructor
  · intro among
    cases among with
    | here present => exact .inl (List.mem_singleton.mp present)
    | inside present among =>
        cases List.mem_singleton.mp present
        exact .inr among
    | aside forked present among =>
        cases List.mem_singleton.mp forked
        exact .inr ⟨_, present, among⟩
  · rintro (rfl | contains)
    · exact .here List.mem_cons_self
    · cases only with
      | performed => exact contains.elim
      | executed => exact .inside List.mem_cons_self contains
      | branched =>
          obtain ⟨side, present, among⟩ := contains
          exact .aside List.mem_cons_self present among

/-- What is among records is among those before the last one, is the last one, or is within it. -/
theorem among_concat_iff {record last : Record} {before : List Record} :
    record.Among (before ++ [last]) ↔
      record.Among before ∨ record = last ∨ record.Contains last := by
  rw [among_append_iff, among_singleton_iff]

/-- What is among records is the first one, is within it, or is among the others. -/
theorem among_cons_iff {record first : Record} {rest : List Record} :
    record.Among (first :: rest) ↔
      (record = first ∨ record.Contains first) ∨ record.Among rest := by
  rw [← List.singleton_append, among_append_iff, among_singleton_iff]

/-- What is among records stays among them behind another one. -/
theorem Among.cons {record first : Record} {rest : List Record} (among : record.Among rest) :
    record.Among (first :: rest) :=
  among_cons_iff.mpr (.inr among)

/-- That a record is what a move leaves at its place. -/
def LeftBy (record : Record) : Move → Prop
  | .performed action reply => record = .performed action reply
  | .entered call => record = .executed call.activity call.role [] none
  | .left call result =>
      ∃ within, record = .executed call.activity call.role within (some result)
  | .silent => False

namespace Grows

variable {path : List (List Record)} {records later : List Record} {move : Move}

/-- What a move leaves stands behind what was done before at its level. -/
theorem place (result? : Option Result) (grows : Grows path records move later)
    (does : move ≠ .silent) :
    ∃ before record owner ended?, path.getLast? = some before ∧ record.LeftBy move ∧
      Level later result? owner (before ++ [record]) ended? := by
  induction grows generalizing result? with
  | silent => exact absurd rfl does
  | performed => exact ⟨_, _, .whole, result?, rfl, rfl, .whole⟩
  | entered => exact ⟨_, _, .whole, result?, rfl, rfl, .whole⟩
  | left => exact ⟨_, _, .whole, result?, rfl, ⟨_, rfl⟩, .whole⟩
  | forked => exact absurd rfl does
  | inside grows inductionHypothesis =>
      obtain ⟨inner, record, owner, ended?, isLast, leftBy, isLevel⟩ := inductionHypothesis none does
      refine ⟨inner, record, _, ended?, ?_, leftBy,
        (Level.inside .whole List.mem_concat_self).nest isLevel⟩
      rw [List.getLast?_cons, isLast, Option.getD_some]
  | @aside _ before _ nextWithin _ sides index nextResult? present grows inductionHypothesis =>
      obtain ⟨inner, record, owner, ended?, isLast, leftBy, isLevel⟩ :=
        inductionHypothesis nextResult? does
      obtain ⟨inside, _⟩ := List.getElem?_eq_some_iff.mp present
      have isSide : (nextWithin, nextResult?) ∈ sides.set index (nextWithin, nextResult?) :=
        List.mem_set inside _
      refine ⟨inner, record, _, ended?, ?_, leftBy,
        (Level.aside .whole List.mem_concat_self isSide).nest isLevel⟩
      rw [List.getLast?_cons, isLast, Option.getD_some]

/-- Where an action is performed, it stands behind what was done before there. -/
theorem level {action : Action} {reply : action.Reply} (result? : Option Result)
    (grows : Grows path records (.performed action reply) later) :
    ∃ before owner ended?, path.getLast? = some before ∧
      Level later result? owner (before ++ [.performed action reply]) ended? := by
  obtain ⟨before, record, owner, ended?, isLast, rfl, isLevel⟩ := grows.place result? nofun
  exact ⟨before, owner, ended?, isLast, isLevel⟩

/-- What stands before a place was done before. -/
theorem among_of_mem {before : List Record} {record : Record}
    (grows : Grows path records move later) (onPath : before ∈ path) (present : record ∈ before) :
    record.Among records := by
  induction grows with
  | silent => cases onPath
  | performed =>
      cases List.mem_singleton.mp onPath
      exact .here present
  | entered =>
      cases List.mem_singleton.mp onPath
      exact .here present
  | left =>
      cases List.mem_singleton.mp onPath
      exact .here (List.mem_append_left _ present)
  | forked =>
      cases List.mem_singleton.mp onPath
      exact .here present
  | inside _ inductionHypothesis =>
      rcases List.mem_cons.mp onPath with rfl | deeper
      · exact .here (List.mem_append_left _ present)
      · exact .inside List.mem_concat_self (inductionHypothesis deeper)
  | aside isSide _ inductionHypothesis =>
      rcases List.mem_cons.mp onPath with rfl | deeper
      · exact .here (List.mem_append_left _ present)
      · exact .aside List.mem_concat_self (List.mem_of_getElem? isSide) (inductionHypothesis deeper)

/-- An action that was performed was so before, or has just been performed. -/
theorem among_performed_iff {action : Action} {reply : action.Reply}
    (grows : Grows path records move later) :
    (Record.performed action reply).Among later ↔
      (Record.performed action reply).Among records ∨ move = .performed action reply := by
  induction grows with
  | silent => simp
  | performed => simp [among_concat_iff, Contains, eq_comm]
  | entered => simp [among_concat_iff, Contains, not_among_nil]
  | left => simp [among_concat_iff, Contains]
  | forked => simp [among_concat_iff, Contains, not_among_nil]
  | inside _ inductionHypothesis => simp [among_concat_iff, Contains, inductionHypothesis, or_assoc]
  | @aside _ before within later _ sides index result? present grows inductionHypothesis =>
      obtain ⟨inside, _⟩ := List.getElem?_eq_some_iff.mp present
      have isSide : (later, result?) ∈ sides.set index (later, result?) := List.mem_set inside _
      simp only [among_concat_iff, Contains, reduceCtorEq, false_or, or_assoc]
      refine or_congr_right ⟨?_, ?_⟩
      · rintro ⟨side, isSide, among⟩
        rcases List.mem_or_eq_of_mem_set isSide with old | rfl
        · exact .inl ⟨side, old, among⟩
        · rcases inductionHypothesis.mp among with before | isMove
          · exact .inl ⟨_, List.mem_of_getElem? present, before⟩
          · exact .inr isMove
      · rintro (⟨side, old, among⟩ | isMove)
        · rcases Thread.same_or_mem_set (later, result?) present old with rfl | stays
          · exact ⟨_, isSide, inductionHypothesis.mpr (.inl among)⟩
          · exact ⟨side, stays, among⟩
        · exact ⟨_, isSide, inductionHypothesis.mpr (.inr isMove)⟩

end Grows

/-- The execution that a move begins or ends stands in the records then. -/
theorem Grows.among_executed {path : List (List Record)} {records later : List Record} {move : Move}
    {call : Call} (grows : Grows path records move later)
    (isCall : move = .entered call ∨ ∃ result, move = .left call result) :
    ∃ within ended?, (Record.executed call.activity call.role within ended?).Among later := by
  induction grows with
  | silent => simp at isCall
  | performed => simp at isCall
  | forked => simp at isCall
  | entered =>
      obtain rfl : _ = call := by simpa using isCall
      exact ⟨_, _, .here List.mem_concat_self⟩
  | left =>
      obtain rfl : _ = call := by simpa using isCall
      exact ⟨_, _, .here List.mem_concat_self⟩
  | inside _ inductionHypothesis =>
      obtain ⟨within, ended?, among⟩ := inductionHypothesis isCall
      exact ⟨within, ended?, .inside List.mem_concat_self among⟩
  | aside present _ inductionHypothesis =>
      obtain ⟨within, ended?, among⟩ := inductionHypothesis isCall
      obtain ⟨inRange, _⟩ := List.getElem?_eq_some_iff.mp present
      exact ⟨within, ended?, .aside List.mem_concat_self (List.mem_set inRange _) among⟩

/-- A move that leaves no records did nothing that is recorded. -/
theorem Grows.of_nil {path : List (List Record)} {records : List Record} {move : Move}
    (grows : Grows path records move []) : records = [] ∧ move = .silent := by
  generalize isNil : ([] : List Record) = later at grows
  cases grows with
  | silent => exact ⟨rfl, rfl⟩
  | _ => simp at isNil

/-- An action that is the only record was the first. -/
theorem Grows.of_performed {path : List (List Record)} {records : List Record} {move : Move}
    {action : Action} {reply : action.Reply}
    (grows : Grows path records move [.performed action reply]) (does : move ≠ .silent) :
    records = [] := by
  generalize isOnly : [Record.performed action reply] = later at grows
  cases grows with
  | silent => exact absurd rfl does
  | performed =>
      cases records with
      | nil => rfl
      | cons => simp at isOnly
  | entered | left | forked | inside | aside =>
      have isLast := congrArg List.getLast? isOnly
      simp at isLast

/-- Moves that leave no records did nothing that is recorded. -/
theorem Keeps.of_nil {moves : List Move} (kept : Keeps moves []) : ∀ move ∈ moves, move = .silent := by
  generalize isNil : ([] : List Record) = records at kept
  induction kept with
  | nil => simp
  | grow _ grows inductionHypothesis =>
      subst isNil
      obtain ⟨rfl, rfl⟩ := grows.of_nil
      intro move present
      rcases List.mem_append.mp present with earlier | isLast
      · exact inductionHypothesis rfl move earlier
      · exact List.mem_singleton.mp isLast

/-- The actions of a tree are those of the moves that come to it. -/
theorem Keeps.among_performed_iff {moves : List Move} {records : List Record} {action : Action}
    {reply : action.Reply} (kept : Keeps moves records) :
    (Record.performed action reply).Among records ↔ Move.performed action reply ∈ moves := by
  induction kept with
  | nil => simp [not_among_nil]
  | grow _ grows inductionHypothesis =>
      rw [grows.among_performed_iff, inductionHypothesis, List.mem_append, List.mem_singleton,
        eq_comm]

/-- An execution under way, and what was done before it at its level. -/
structure Frame where
  before : List Record
  activity : Activity
  role : Role

/-- What was done, seen from within executions under way, of which the innermost comes first. -/
def within : List Frame → List Record → List Record
  | [], current => current
  | frame :: frames, current =>
      within frames (frame.before ++ [.executed frame.activity frame.role current none])

/-- What is added within executions under way is added to the whole. -/
theorem Grows.within {path : List (List Record)} {current later : List Record} {move : Move}
    (grows : Grows path current move later) (frames : List Frame) :
    Grows (frames.reverse.map Frame.before ++ path) (within frames current) move
      (within frames later) := by
  induction frames generalizing path current later with
  | nil => exact grows
  | cons frame frames inductionHypothesis =>
      simpa [Record.within] using inductionHypothesis grows.inside

end Record

namespace Contract

/-- That the actions of a tree had replies that a contract takes for granted. -/
def Expects (contract : Contract) (records : List Record) : Prop :=
  ∀ action reply, (Record.performed action reply).Among records → contract.replies action reply

/-- That a contract allows all executions of a tree. -/
def Allows (contract : Contract) (records : List Record) : Prop :=
  ∀ activity role within ended?, (Record.executed activity role within ended?).Among records →
    contract.calls activity role

variable {contract : Contract} {records : List Record}

/-- No reply was unexpected where nothing was done. -/
theorem expects_nil : contract.Expects [] :=
  fun _ _ among => absurd among (Record.not_among_nil _)

/-- No execution was forbidden where nothing was done. -/
theorem allows_nil : contract.Allows [] :=
  fun _ _ _ _ among => absurd among (Record.not_among_nil _)

/-- Actions are no executions. -/
theorem Allows.performed {action : Action} {reply : action.Reply} (allows : contract.Allows records) :
    contract.Allows (.performed action reply :: records) := by
  intro activity role within ended? among
  rcases Record.among_cons_iff.mp among with (impossible | impossible) | among
  · cases impossible
  · exact impossible.elim
  · exact allows activity role within ended? among

/-- One more execution is allowed where its call is, and what is within it. -/
theorem Allows.executed {activity : Activity} {role : Role} {within : List Record}
    {ended? : Option Result} (allowed : contract.calls activity role)
    (inside : contract.Allows within) (allows : contract.Allows records) :
    contract.Allows (.executed activity role within ended? :: records) := by
  intro other otherRole otherWithin otherEnded? among
  rcases Record.among_cons_iff.mp among with (same | among) | among
  · cases same
    exact allowed
  · exact inside other otherRole otherWithin otherEnded? among
  · exact allows other otherRole otherWithin otherEnded? among

/-- Branches are allowed where all their sides are. -/
theorem Allows.branched {sides : List (List Record × Option Result)}
    (aside : ∀ side ∈ sides, contract.Allows side.1) (allows : contract.Allows records) :
    contract.Allows (.branched sides :: records) := by
  intro activity role within ended? among
  rcases Record.among_cons_iff.mp among with (impossible | ⟨side, present, among⟩) | among
  · cases impossible
  · exact aside side present activity role within ended? among
  · exact allows activity role within ended? among

/-- One more action has an expected reply. -/
theorem Expects.performed {action : Action} {reply : action.Reply} (replied : contract.replies action reply)
    (expects : contract.Expects records) : contract.Expects (.performed action reply :: records) := by
  intro other otherReply among
  rcases Record.among_cons_iff.mp among with (same | impossible) | among
  · cases same
    exact replied
  · exact impossible.elim
  · exact expects other otherReply among

/-- One more execution has expected replies where what is within it has. -/
theorem Expects.executed {activity : Activity} {role : Role} {within : List Record}
    {ended? : Option Result} (inside : contract.Expects within) (expects : contract.Expects records) :
    contract.Expects (.executed activity role within ended? :: records) := by
  intro action reply among
  rcases Record.among_cons_iff.mp among with (impossible | among) | among
  · cases impossible
  · exact inside action reply among
  · exact expects action reply among

/-- Branches have expected replies where all their sides have. -/
theorem Expects.branched {sides : List (List Record × Option Result)}
    (aside : ∀ side ∈ sides, contract.Expects side.1) (expects : contract.Expects records) :
    contract.Expects (.branched sides :: records) := by
  intro action reply among
  rcases Record.among_cons_iff.mp among with (impossible | ⟨side, present, among⟩) | among
  · cases impossible
  · exact aside side present action reply among
  · exact expects action reply among

/-- Replies stay expected without the first record. -/
theorem Expects.rest {first : Record} (expects : contract.Expects (first :: records)) :
    contract.Expects records :=
  fun action reply among => expects action reply among.cons

/-- The replies within an execution are expected. -/
theorem Expects.inside {activity : Activity} {role : Role} {within : List Record}
    {ended? : Option Result} (expects : contract.Expects records)
    (present : .executed activity role within ended? ∈ records) : contract.Expects within :=
  fun action reply among => expects action reply (.inside present among)

/-- The replies on a side of branches are expected. -/
theorem Expects.aside {sides : List (List Record × Option Result)}
    {side : List Record × Option Result} (expects : contract.Expects records)
    (forked : .branched sides ∈ records) (present : side ∈ sides) : contract.Expects side.1 :=
  fun action reply among => expects action reply (.aside forked present among)

end Contract

/-- Of lists of one length, one has an element wherever the other does. -/
theorem exists_getElem?_of_mem {α β : Type} {left : List α} {right : List β} {one : α}
    (paired : left.length = right.length) (present : one ∈ left) :
    ∃ (index : Nat) (other : β), left[index]? = some one ∧ right[index]? = some other := by
  obtain ⟨index, isOne⟩ := List.getElem?_of_mem present
  obtain ⟨within, _⟩ := List.getElem?_eq_some_iff.mp isOne
  have inRange : index < right.length := paired ▸ within
  exact ⟨index, right[index], isOne, List.getElem?_eq_getElem inRange⟩

/-- A result of branches that have all ended is that of one of them. -/
theorem Record.exists_side_of_result {sides : List (List Record × Option Result)}
    {results : List Result} {result : Result} (ended : sides.map Prod.snd = results.map some)
    (present : result ∈ results) : ∃ side ∈ sides, side.2 = some result := by
  have known : some result ∈ sides.map Prod.snd := by
    rw [ended]
    exact List.mem_map_of_mem present
  exact List.mem_map.mp known

/-- Each of branches that have all ended has one of their results. -/
theorem Record.exists_result_of_side {sides : List (List Record × Option Result)}
    {side : List Record × Option Result} {results : List Result}
    (ended : sides.map Prod.snd = results.map some) (present : side ∈ sides) :
    ∃ result ∈ results, side.2 = some result := by
  have isResult : side.2 ∈ results.map some := by
    rw [← ended]
    exact List.mem_map_of_mem present
  obtain ⟨result, known, same⟩ := List.mem_map.mp isResult
  exact ⟨result, known, same.symm⟩

/-- What is done of a task that keeps to a contract is allowed by it, and ends as it says, if the replies
are expected. -/
theorem Task.Unfolds.allows {contract : Contract} {program : Program} {inside : Bool} {task : Task}
    {records : List Record} {result? : Option Result}
    (bodies : ∀ activity role, contract.calls activity role →
      (program.body activity).Obeys contract true)
    (unfolds : task.Unfolds program records result?) (obeys : task.Obeys contract inside)
    (expects : contract.Expects records) :
    contract.Allows records ∧ ∀ result, result? = some result → contract.returns result := by
  induction unfolds generalizing inside with
  | rest => exact ⟨Contract.allows_nil, nofun⟩
  | done =>
      refine ⟨Contract.allows_nil, ?_⟩
      rintro _ ⟨⟩
      exact obeys.returned
  | act _ inductionHypothesis =>
      have replied := expects _ _ (.here List.mem_cons_self)
      obtain ⟨allows, returns⟩ := inductionHypothesis (obeys.reply replied) expects.rest
      exact ⟨allows.performed, returns⟩
  | inside _ inductionHypothesis =>
      cases obeys with
      | call allowed =>
          obtain ⟨within, _⟩ := inductionHypothesis (bodies _ _ allowed)
            (expects.inside List.mem_cons_self)
          exact ⟨.executed allowed within Contract.allows_nil, nofun⟩
  | call _ _ bodyHypothesis inductionHypothesis =>
      cases obeys with
      | call allowed _ _ continues =>
          obtain ⟨within, returned⟩ := bodyHypothesis (bodies _ _ allowed)
            (expects.inside List.mem_cons_self)
          obtain ⟨allows, returns⟩ :=
            inductionHypothesis (continues _ (returned _ rfl)) expects.rest
          exact ⟨.executed allowed within allows, returns⟩
  | wait _ inductionHypothesis => exact inductionHypothesis obeys.waited.2 expects
  | @aside branches join sides paired unfold inductionHypothesis =>
      refine ⟨.branched (fun side present => ?_) Contract.allows_nil, nofun⟩
      obtain ⟨index, branch, isSide, isBranch⟩ := exists_getElem?_of_mem paired present
      exact (inductionHypothesis index _ side isBranch isSide
        (obeys.forked.1 _ (List.mem_of_getElem? isBranch)).2 (expects.aside List.mem_cons_self present)).1
  | @fork branches join sides results records result? paired ended unfold _ sidesHypothesis
      inductionHypothesis =>
      have aside : ∀ side ∈ sides, contract.Allows side.1 ∧
          ∀ result, side.2 = some result → contract.returns result := by
        intro side present
        obtain ⟨index, branch, isSide, isBranch⟩ := exists_getElem?_of_mem paired present
        exact sidesHypothesis index _ side isBranch isSide
          (obeys.forked.1 _ (List.mem_of_getElem? isBranch)).2 (expects.aside List.mem_cons_self present)
      have returned : ∀ result ∈ results, contract.returns result := by
        intro result present
        obtain ⟨side, isSide, same⟩ := Record.exists_side_of_result ended present
        exact (aside side isSide).2 result same
      obtain ⟨allows, returns⟩ :=
        inductionHypothesis ((obeys.forked.2 results).2 returned) expects.rest
      exact ⟨.branched (fun side present => (aside side present).1) allows, returns⟩

end Orchestration
