import Mathlib.Data.List.Range

namespace Library

-- An entry of a log that is chained by digests: the digest is taken over the
-- digest before it, the body and the position.
structure Sealed (β δ : Type) where
  body : β
  sequence : ℕ
  previous : δ
  digest : δ
deriving DecidableEq

namespace Sealed

variable {β δ : Type} (mark : δ → β → ℕ → δ) (genesis : δ)

def next (last : δ) (sequence : ℕ) (body : β) : Sealed β δ :=
  ⟨body, sequence, last, mark last body sequence⟩

-- The log grows at its end, from the genesis digest on. The second argument is the
-- last digest.
inductive Chain : List (Sealed β δ) → δ → Prop
  | empty : Chain [] genesis
  | append {log last} (h : Chain log last) (body : β) :
      Chain (log ++ [next mark last (log.length + 1) body]) (mark last body (log.length + 1))

variable {mark : δ → β → ℕ → δ} {genesis : δ} {log log' : List (Sealed β δ)} {last last' : δ}

theorem Chain.sequences (h : Chain mark genesis log last) :
    log.map sequence = List.range' 1 log.length := by
  induction h with
  | empty => rfl
  | append h body ih =>
      rw [List.map_append, ih, List.length_append, List.range'_append_1.symm]
      simp [next, Nat.add_comm]

theorem Chain.linked (h : Chain mark genesis log last) :
    log.map previous ++ [last] = genesis :: log.map digest := by
  induction h with
  | empty => rfl
  | append h body ih =>
      rw [List.map_append, List.map_append, ← List.cons_append, ← ih]
      rfl

-- What holds of the genesis digest and of every mark holds of every previous digest.
theorem Chain.previous_of (h : Chain mark genesis log last) {p : δ → Prop} (hgenesis : p genesis)
    (hmark : ∀ last body sequence, p (mark last body sequence)) :
    p last ∧ ∀ entry ∈ log, p entry.previous := by
  induction h with
  | empty => exact ⟨hgenesis, fun _ he => absurd he List.not_mem_nil⟩
  | append h body ih =>
      refine ⟨hmark _ _ _, fun entry he => ?_⟩
      rcases List.mem_append.mp he with he | he
      · exact ih.2 entry he
      · rw [List.mem_singleton.mp he]
        exact ih.1

theorem Chain.digest_of_mem (h : Chain mark genesis log last) {entry : Sealed β δ}
    (he : entry ∈ log) : entry.digest = mark entry.previous entry.body entry.sequence := by
  induction h with
  | empty => exact absurd he List.not_mem_nil
  | append h body ih =>
      rcases List.mem_append.mp he with he | he
      · exact ih he
      · rw [List.mem_singleton.mp he]
        rfl

-- Two logs with the same last digest are the same log, unless some two of their
-- marks collide or one of them is the genesis digest.
theorem Chain.unique (h : Chain mark genesis log last) (h' : Chain mark genesis log' last')
    (hinj : ∀ entry ∈ log, ∀ entry' ∈ log', entry.digest = entry'.digest →
      entry.body = entry'.body ∧ entry.previous = entry'.previous)
    (hgenesis : ∀ entry ∈ log ++ log', entry.digest ≠ genesis) (hlast : last = last') :
    log = log' := by
  induction h generalizing log' last' with
  | empty =>
      cases h' with
      | empty => rfl
      | @append log' last' h' body =>
          have hmem : next mark last' (log'.length + 1) body ∈
              log' ++ [next mark last' (log'.length + 1) body] := by simp
          exact absurd hlast.symm (hgenesis _ hmem)
  | @append log last h body ih =>
      cases h' with
      | empty =>
          have hmem : next mark last (log.length + 1) body ∈
              log ++ [next mark last (log.length + 1) body] ++ [] := by simp
          exact absurd hlast (hgenesis _ hmem)
      | @append log' last' h' body' =>
          obtain ⟨hbody, hprevious⟩ := hinj
            _ (List.mem_append_right _ (List.mem_singleton_self _))
            _ (List.mem_append_right _ (List.mem_singleton_self _)) hlast
          have hlog : log = log' := by
            apply ih h'
            · intro entry he entry' he'
              exact hinj entry (List.mem_append_left _ he) entry' (List.mem_append_left _ he')
            · intro entry he
              apply hgenesis
              rcases List.mem_append.mp he with he | he <;> simp [he]
            · exact hprevious
          subst hlog
          rw [show body = body' from hbody, show last = last' from hprevious]

end Sealed

-- Entries of any kind, each of which names the digest of the one before it. The second
-- argument is the last digest.
inductive Linked {ε δ : Type} (previous digest : ε → δ) : List ε → δ → Prop
  | empty (last : δ) : Linked previous digest [] last
  | append {entries : List ε} {entry : ε} (h : Linked previous digest entries (previous entry)) :
      Linked previous digest (entries ++ [entry]) (digest entry)

namespace Linked

variable {ε δ : Type} {previous digest : ε → δ} {entries entries' : List ε} {last : δ}

theorem drop (h : Linked previous digest entries last) (n : ℕ) :
    Linked previous digest (entries.drop n) last := by
  induction h with
  | empty last => simpa using .empty last
  | @append entries entry h ih =>
      by_cases hn : n ≤ entries.length
      · rw [List.drop_append_of_le_length hn]
        exact ih.append
      · rw [List.drop_eq_nil_of_le (by simp; omega)]
        exact .empty _

-- The last digest settles all entries, as far as they go back, unless two of them collide.
theorem suffix (h : Linked previous digest entries last) (h' : Linked previous digest entries' last)
    (hfree : ∀ entry ∈ entries, ∀ entry' ∈ entries', digest entry = digest entry' → entry = entry')
    (hlength : entries.length ≤ entries'.length) : entries <:+ entries' := by
  induction h generalizing entries' with
  | empty last => exact List.nil_suffix
  | @append entries entry h ih =>
      generalize hlast : digest entry = last at h'
      cases h' with
      | empty => simp at hlength
      | @append entries' entry' h' =>
          obtain rfl := hfree entry (by simp) entry' (by simp) hlast
          have hbefore : entries <:+ entries' := by
            apply ih h'
            · exact fun _ hmem _ hmem' =>
                hfree _ (List.mem_append_left _ hmem) _ (List.mem_append_left _ hmem')
            · simpa using hlength
          obtain ⟨front, rfl⟩ := hbefore
          exact ⟨front, by rw [List.append_assoc]⟩

end Linked

end Library
