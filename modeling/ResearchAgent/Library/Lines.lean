import Mathlib.Data.List.Nodup

namespace Library

-- What can happen to a line: someone comes who was not there before, the first is served,
-- or others join at the end.
inductive LineEvent (α : Type) where
  | comes (a : α)
  | served (a : α)
  | joined
deriving DecidableEq, Repr

-- Others may also join just before the first is served.
inductive LineStep {α : Type} : LineEvent α → List α → List α → Prop
  | comes (a : α) (line : List α) : LineStep (.comes a) line (line ++ [a])
  | served {a : α} {line added rest : List α} (first : line ++ added = a :: rest)
      (nodup : (a :: rest).Nodup) : LineStep (.served a) line rest
  | joined (line added : List α) : LineStep .joined line (line ++ added)

namespace LineEvent

variable {α : Type}

def newcomer : LineEvent α → Option α
  | comes a => some a
  | served _ | joined => none

def customer : LineEvent α → Option α
  | served a => some a
  | comes _ | joined => none

end LineEvent

section Lists

variable {α : Type} {a b c : α} {line front : List α}

theorem pair_sublist_cons (h : [b, a].Sublist (c :: line)) (hne : b ≠ c) :
    [b, a].Sublist line := by
  cases h with
  | cons _ h => exact h
  | cons_cons => exact absurd rfl hne

theorem pair_sublist_append (h : [b, a].Sublist (front ++ line)) (hb : b ∉ front) :
    [b, a].Sublist line := by
  induction front with
  | nil => exact h
  | cons first rest ih =>
      have hrest := pair_sublist_cons h (List.ne_of_not_mem_cons hb)
      exact ih hrest (List.not_mem_of_not_mem_cons hb)

-- Nobody stands before the first.
theorem first_of_pair (h : [a, b].Sublist (b :: line)) (hnodup : (b :: line).Nodup) : a = b := by
  by_contra hne
  have hrest := pair_sublist_cons h hne
  exact (List.nodup_cons.mp hnodup).1 (hrest.subset (by simp))

theorem filter_ne_first [DecidableEq α] (hnodup : (a :: line).Nodup) :
    (a :: line).filter (· ≠ a) = line := by
  have hfirst := (List.nodup_cons.mp hnodup).1
  rw [List.filter_cons_of_neg (by simp), List.filter_eq_self]
  intro other hmem
  simpa using ne_of_mem_of_not_mem hmem hfirst

end Lists

namespace Line

variable {α : Type} {history : List (LineEvent α)} {event : LineEvent α}

-- Who has come and who has been served, the last first.
def came (history : List (LineEvent α)) : List α := history.filterMap LineEvent.newcomer

def served (history : List (LineEvent α)) : List α := history.filterMap LineEvent.customer

variable [DecidableEq α] {line line' : List α}

-- Those who have come and have not been served stand in the line as they came, and of two
-- the later one is not served before the earlier.
structure InOrder (history : List (LineEvent α)) (line : List α) : Prop where
  waiting : ((came history).filter (· ∉ served history)).Sublist line.reverse
  fair : ∀ a b, [b, a].Sublist (came history) → b ∈ served history → a ∈ served history
  customers : ∀ a ∈ served history, a ∈ came history

theorem inOrder_empty (line : List α) : InOrder [] line where
  waiting := List.nil_sublist _
  fair _ _ _ hserved := absurd hserved List.not_mem_nil
  customers _ hserved := absurd hserved List.not_mem_nil

theorem InOrder.step (h : InOrder history line) (hstep : LineStep event line line')
    (hnew : ∀ a, event = .comes a → a ∉ came history)
    (hknown : ∀ a, event = .served a → a ∈ came history) : InOrder (event :: history) line' := by
  cases hstep with
  | comes a =>
      have ha := hnew a rfl
      have hunserved : a ∉ served history := fun hserved => ha (h.customers a hserved)
      refine ⟨?_, fun b c hpair hserved => ?_, fun b hserved => ?_⟩
      · show ((a :: came history).filter (· ∉ served history)).Sublist _
        rw [List.filter_cons_of_pos (by simpa using hunserved), List.reverse_append]
        exact h.waiting.cons_cons a
      · have hc := h.customers c hserved
        exact h.fair b c (pair_sublist_cons hpair (ne_of_mem_of_not_mem hc ha)) hserved
      · exact List.mem_cons_of_mem a (h.customers b hserved)
  | @served a _ added _ hfirst hnodup =>
      have hline : line.reverse.Sublist (a :: line').reverse := by
        rw [← hfirst, List.reverse_append]
        exact List.sublist_append_right _ _
      refine ⟨?_, fun b c hpair hserved => ?_, fun b hserved => ?_⟩
      · have hleft : (came history).filter (· ∉ a :: served history) =
            ((came history).filter (· ∉ served history)).filter (· ≠ a) := by
          rw [List.filter_filter]
          refine List.filter_congr fun b _ => ?_
          simp
        show ((came history).filter (· ∉ a :: served history)).Sublist line'.reverse
        rw [hleft, ← filter_ne_first hnodup, ← List.filter_reverse]
        exact (h.waiting.trans hline).filter _
      · rcases List.mem_cons.mp hserved with rfl | hserved
        · -- Both would still be in the line, the one that is served not as the first.
          by_contra hwaits
          obtain ⟨hne, hunserved⟩ : b ≠ c ∧ b ∉ served history := by
            rw [← not_or, ← List.mem_cons]
            exact hwaits
          have hlater : c ∉ served history := fun hc => hunserved (h.fair b c hpair hc)
          have hboth := (hpair.filter (· ∉ served history)).trans (h.waiting.trans hline)
          rw [List.filter_cons_of_pos (by simpa using hlater),
            List.filter_cons_of_pos (by simpa using hunserved), List.filter_nil] at hboth
          exact hne (first_of_pair (by simpa using hboth.reverse) hnodup)
        · exact List.mem_cons_of_mem _ (h.fair b c hpair hserved)
      · rcases List.mem_cons.mp hserved with rfl | hserved
        · exact hknown b rfl
        · exact h.customers b hserved
  | joined _ added =>
      refine ⟨?_, h.fair, h.customers⟩
      rw [List.reverse_append]
      exact h.waiting.trans (List.sublist_append_right _ _)

end Line

end Library
