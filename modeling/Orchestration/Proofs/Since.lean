import Mathlib.Data.List.Induction

/-!
# What holds since something happened

A past is a list of what happened, the latest coming last. In it something holds since it happened if
nothing that would end it came afterwards.
-/

namespace Orchestration

/-- That something happened after which nothing came that ends it. -/
def Since {α : Type} (happens ends : α → Prop) (past : List α) : Prop :=
  ∃ before event after, past = before ++ event :: after ∧ happens event ∧
    ∀ later ∈ after, ¬ ends later

namespace Since

variable {α : Type} {first second ends : α → Prop} {past : List α} {last : α}

/-- Nothing has happened in no past. -/
theorem not_nil : ¬ Since first ends [] := by
  rintro ⟨before, event, after, impossible, _⟩
  simp at impossible

/-- What holds once one more thing has happened. -/
theorem concat_iff :
    Since first ends (past ++ [last]) ↔ first last ∨ (Since first ends past ∧ ¬ ends last) := by
  constructor
  · rintro ⟨before, event, after, placed, happened, nothing⟩
    rcases List.eq_nil_or_concat after with rfl | ⟨earlier, final, rfl⟩
    · cases (List.append_inj' placed rfl).2
      exact .inl happened
    · rw [List.concat_eq_append] at placed nothing
      rw [← List.cons_append, ← List.append_assoc] at placed
      obtain ⟨rfl, same⟩ := List.append_inj' placed rfl
      cases same
      have nothingEarlier : ∀ later ∈ earlier, ¬ ends later :=
        fun later present => nothing later (List.mem_append_left _ present)
      exact .inr ⟨⟨before, event, earlier, rfl, happened, nothingEarlier⟩, nothing last (by simp)⟩
  · rintro (happened | ⟨⟨before, event, after, rfl, happened, nothing⟩, unended⟩)
    · exact ⟨past, last, [], rfl, happened, by simp⟩
    · refine ⟨before, event, after ++ [last], by simp, happened, fun later present => ?_⟩
      rcases List.mem_append.mp present with earlier | isLast
      · exact nothing later earlier
      · rwa [List.mem_singleton.mp isLast]

/-- Two things do not each hold since the other, unless they happen at once. -/
theorem asymm (exclusive : ∀ event, first event → ¬ second event)
    (since : Since first second past) : ¬ Since second first past := by
  induction past using List.reverseRecOn with
  | nil => exact absurd since not_nil
  | append_singleton past last inductionHypothesis =>
      rw [concat_iff] at since ⊢
      rintro (isSecond | ⟨earlier, notFirst⟩)
      · rcases since with isFirst | ⟨_, notSecond⟩
        · exact exclusive last isFirst isSecond
        · exact notSecond isSecond
      · rcases since with isFirst | ⟨sofar, _⟩
        · exact notFirst isFirst
        · exact inductionHypothesis sofar earlier

/-- Of something that happened and something else, one holds since the other. -/
theorem or_symm (happened : ∃ event ∈ past, first event) :
    Since first second past ∨ Since second first past := by
  induction past using List.reverseRecOn with
  | nil => simp at happened
  | append_singleton past last inductionHypothesis =>
      rw [concat_iff, concat_iff]
      by_cases isFirst : first last
      · exact .inl (.inl isFirst)
      · have earlier : ∃ event ∈ past, first event := by
          simpa [or_and_right, exists_or, isFirst] using happened
        by_cases isSecond : second last
        · exact .inr (.inl isSecond)
        · rcases inductionHypothesis earlier with sofar | sofar
          · exact .inl (.inr ⟨sofar, isSecond⟩)
          · exact .inr (.inr ⟨sofar, isFirst⟩)

/-- What holds since something that holds itself is not ended by what would end that. -/
theorem trans (earlier : Since first ends past) (later : Since second first past) :
    Since second ends past := by
  induction past using List.reverseRecOn with
  | nil => exact absurd later not_nil
  | append_singleton past last inductionHypothesis =>
      rw [concat_iff] at earlier later ⊢
      rcases later with isSecond | ⟨laterSofar, notFirst⟩
      · exact .inl isSecond
      · rcases earlier with isFirst | ⟨earlierSofar, unended⟩
        · exact absurd isFirst notFirst
        · exact .inr ⟨inductionHypothesis earlierSofar laterSofar, unended⟩

/-- One of two things has happened since when the first has or the second has. -/
theorem or_iff :
    Since (fun event => first event ∨ second event) ends past ↔
      Since first ends past ∨ Since second ends past := by
  simp only [Since, or_and_right, and_or_left, exists_or]

/-- What holds although more might have ended it holds. -/
theorem weaken {fewer : α → Prop} (weaker : ∀ event, fewer event → ends event)
    (since : Since first ends past) : Since first fewer past := by
  obtain ⟨before, event, after, placed, happened, nothing⟩ := since
  exact ⟨before, event, after, placed, happened, fun later present isFewer =>
    nothing later present (weaker later isFewer)⟩

/-- What holds has happened. -/
theorem exists_mem (since : Since first ends past) : ∃ event ∈ past, first event := by
  obtain ⟨before, event, after, rfl, happened, _⟩ := since
  exact ⟨event, by simp, happened⟩

end Since

end Orchestration
