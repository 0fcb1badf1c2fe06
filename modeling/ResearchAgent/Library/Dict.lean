import Mathlib.Data.Finset.Card
import Mathlib.Data.List.Nodup
import Mathlib.Data.List.Perm.Basic

namespace Library

-- Assignment in an insertion-ordered dictionary. An existing key keeps its
-- place and a new key goes to the end.
def assign {κ ν : Type} [DecidableEq κ] (key : κ) (value : ν) : List (κ × ν) → List (κ × ν)
  | [] => [(key, value)]
  | entry :: rest =>
      if entry.1 = key then (key, value) :: rest else entry :: assign key value rest

-- A finite map that remembers the order in which its keys were first stored.
structure Dict (κ ν : Type) where
  entries : List (κ × ν)
  nodup : (entries.map Prod.fst).Nodup

section Assign

variable {κ ν : Type} [DecidableEq κ]

-- The library lemma matches on a Boolean; the proofs here split on an equation.
theorem lookup_cons_eq_ite (key : κ) (entry : κ × ν) (rest : List (κ × ν)) :
    (entry :: rest).lookup key = if entry.1 = key then some entry.2 else rest.lookup key := by
  rcases entry with ⟨stored, value⟩
  by_cases h : stored = key
  · simp [h]
  · have hb : (key == stored) = false := by simpa using Ne.symm h
    simp [List.lookup_cons, hb, h]

theorem mem_keys_assign (key other : κ) (value : ν) (entries : List (κ × ν)) :
    other ∈ (assign key value entries).map Prod.fst ↔
      other = key ∨ other ∈ entries.map Prod.fst := by
  induction entries with
  | nil => simp [assign]
  | cons entry rest ih =>
      by_cases h : entry.1 = key
      · simp [assign, h]
      · simp only [assign, h, ite_false, List.map_cons, List.mem_cons, ih]
        tauto

theorem nodup_keys_assign (key : κ) (value : ν) (entries : List (κ × ν))
    (hn : (entries.map Prod.fst).Nodup) :
    ((assign key value entries).map Prod.fst).Nodup := by
  induction entries with
  | nil => simp [assign]
  | cons entry rest ih =>
      obtain ⟨hnot, hrest⟩ := List.nodup_cons.mp hn
      by_cases h : entry.1 = key
      · simp only [assign, h, ite_true, List.map_cons, List.nodup_cons]
        exact ⟨h ▸ hnot, hrest⟩
      · simp only [assign, h, ite_false, List.map_cons, List.nodup_cons]
        refine ⟨?_, ih hrest⟩
        rw [mem_keys_assign]
        rintro (he | hm)
        · exact h he
        · exact hnot hm

theorem lookup_assign (key other : κ) (value : ν) (entries : List (κ × ν)) :
    (assign key value entries).lookup other =
      if other = key then some value else entries.lookup other := by
  induction entries with
  | nil => simp [assign, lookup_cons_eq_ite, eq_comm]
  | cons entry rest ih =>
      by_cases h : entry.1 = key
      · by_cases ho : other = key <;> simp [assign, lookup_cons_eq_ite, h, ho, Ne.symm]
      · simp only [assign, h, ite_false, lookup_cons_eq_ite, ih]
        by_cases ho : entry.1 = other
        · simp [ho, show other ≠ key from ho ▸ h]
        · simp [ho]

theorem assign_of_not_mem {key : κ} {value : ν} {entries : List (κ × ν)}
    (h : key ∉ entries.map Prod.fst) : assign key value entries = entries ++ [(key, value)] := by
  induction entries with
  | nil => rfl
  | cons entry rest ih =>
      simp only [List.map_cons, List.mem_cons, not_or] at h
      simp [assign, Ne.symm h.1, ih h.2]

theorem of_mem_assign {key : κ} {value : ν} {entry : κ × ν} {entries : List (κ × ν)}
    (h : entry ∈ assign key value entries) : entry = (key, value) ∨ entry ∈ entries := by
  induction entries with
  | nil => simpa [assign] using h
  | cons first rest ih =>
      unfold assign at h
      split at h
      · rcases List.mem_cons.mp h with heq | hrest
        · exact .inl heq
        · exact .inr (List.mem_cons_of_mem _ hrest)
      · rcases List.mem_cons.mp h with heq | hrest
        · exact .inr (List.mem_cons.mpr (.inl heq))
        · exact (ih hrest).imp_right (List.mem_cons_of_mem _)

theorem length_assign_le (key : κ) (value : ν) (entries : List (κ × ν)) :
    (assign key value entries).length ≤ entries.length + 1 := by
  induction entries with
  | nil => simp [assign]
  | cons entry rest ih =>
      unfold assign
      split
      · simp
      · simpa using ih

-- Dictionaries with the same keys, whose values are related, stay so.
theorem forall₂_assign {μ : Type} {related : ν → μ → Prop} {key : κ} {value : ν} {value' : μ}
    {entries : List (κ × ν)} {entries' : List (κ × μ)} (hvalue : related value value')
    (h : List.Forall₂ (fun entry entry' => entry.1 = entry'.1 ∧ related entry.2 entry'.2)
      entries entries') :
    List.Forall₂ (fun entry entry' => entry.1 = entry'.1 ∧ related entry.2 entry'.2)
      (assign key value entries) (assign key value' entries') := by
  induction h with
  | nil => exact .cons ⟨rfl, hvalue⟩ .nil
  | cons hentry hrest ih =>
      obtain ⟨hkeys, hvalues⟩ := hentry
      unfold assign
      rw [hkeys]
      split
      · exact .cons ⟨rfl, hvalue⟩ hrest
      · exact .cons ⟨hkeys, hvalues⟩ ih

theorem lookup_forall₂ {μ : Type} (related : ν → μ → Prop) {key : κ} {value : ν}
    {entries : List (κ × ν)} {entries' : List (κ × μ)}
    (h : List.Forall₂ (fun entry entry' => entry.1 = entry'.1 ∧ related entry.2 entry'.2)
      entries entries') (hlookup : entries.lookup key = some value) :
    ∃ value', entries'.lookup key = some value' ∧ related value value' := by
  induction h with
  | nil => cases hlookup
  | cons hentry hrest ih =>
      obtain ⟨hkeys, hvalues⟩ := hentry
      rw [lookup_cons_eq_ite] at hlookup ⊢
      rw [← hkeys]
      split at hlookup
      · next hkey =>
        cases hlookup
        exact ⟨_, if_pos hkey, hvalues⟩
      · next hkey =>
        rw [if_neg hkey]
        exact ih hlookup

end Assign

namespace Dict

variable {κ ν : Type}

@[ext] theorem ext {d e : Dict κ ν} (h : d.entries = e.entries) : d = e := by
  cases d; cases e; cases h; rfl

def empty : Dict κ ν := ⟨[], List.nodup_nil⟩

def values (d : Dict κ ν) : List ν := d.entries.map Prod.snd

variable [DecidableEq κ]

def get? (d : Dict κ ν) (key : κ) : Option ν := d.entries.lookup key

def set (d : Dict κ ν) (key : κ) (value : ν) : Dict κ ν :=
  ⟨assign key value d.entries, nodup_keys_assign key value d.entries d.nodup⟩

def erase (d : Dict κ ν) (key : κ) : Dict κ ν :=
  ⟨d.entries.filter (fun entry => entry.1 ≠ key),
    d.nodup.sublist ((List.filter_sublist).map Prod.fst)⟩

def contains (d : Dict κ ν) (key : κ) : Bool := (d.get? key).isSome

@[simp] theorem get?_empty (key : κ) : (empty : Dict κ ν).get? key = none := rfl

@[simp] theorem get?_set (d : Dict κ ν) (key other : κ) (value : ν) :
    (d.set key value).get? other = if other = key then some value else d.get? other :=
  lookup_assign key other value d.entries

theorem get?_set_self (d : Dict κ ν) (key : κ) (value : ν) :
    (d.set key value).get? key = some value := by simp

-- A dictionary that is left alone, read as one with the key set to what it has.
theorem get?_eq_ite {d : Dict κ ν} {key : κ} {value : Option ν} (h : d.get? key = value)
    (other : κ) : d.get? other = if other = key then value else d.get? other := by
  split
  · next ho => rw [ho, h]
  · rfl

@[simp] theorem get?_erase (d : Dict κ ν) (key other : κ) :
    (d.erase key).get? other = if other = key then none else d.get? other := by
  rcases d with ⟨entries, hn⟩
  simp only [get?, erase]
  clear hn
  induction entries with
  | nil => simp
  | cons entry rest ih =>
      by_cases h : entry.1 = key
      · rw [List.filter_cons_of_neg (by simp [h]), ih, lookup_cons_eq_ite]
        by_cases ho : other = key
        · simp [ho]
        · simp [ho, h, Ne.symm ho]
      · rw [List.filter_cons_of_pos (by simp [h]), lookup_cons_eq_ite, lookup_cons_eq_ite, ih]
        by_cases ho : entry.1 = other
        · simp [ho, show other ≠ key from ho ▸ h]
        · simp [ho]

theorem get?_eq_some_iff (d : Dict κ ν) (key : κ) (value : ν) :
    d.get? key = some value ↔ (key, value) ∈ d.entries := by
  rcases d with ⟨entries, hn⟩
  simp only [get?]
  induction entries with
  | nil => simp
  | cons entry rest ih =>
      obtain ⟨hnot, hrest⟩ := List.nodup_cons.mp hn
      rw [lookup_cons_eq_ite]
      by_cases h : entry.1 = key
      · subst h
        have hm : (entry.1, value) ∉ rest := fun hm => hnot (List.mem_map.mpr ⟨_, hm, rfl⟩)
        simp only [ite_true, Option.some.injEq, List.mem_cons, hm, or_false]
        exact ⟨fun he => he ▸ rfl, fun he => (congrArg Prod.snd he).symm⟩
      · have he : (key, value) ≠ entry := fun he => h (congrArg Prod.fst he).symm
        simp only [h, ite_false, ih hrest, List.mem_cons, he, false_or]

-- Where the key is stored already, assignment changes its value in place.
theorem entries_set_of_get? {d : Dict κ ν} {key : κ} {old : ν} (h : d.get? key = some old)
    (value : ν) : (d.set key value).entries =
      d.entries.map fun entry => if entry.1 = key then (key, value) else entry := by
  have hmem := (d.get?_eq_some_iff key old).mp h
  have hn := d.nodup
  simp only [set]
  generalize d.entries = entries at hmem hn
  induction entries with
  | nil => cases hmem
  | cons entry rest ih =>
      obtain ⟨hnot, hrest⟩ := List.nodup_cons.mp hn
      by_cases he : entry.1 = key
      · have hrest : ∀ other ∈ rest, (if other.1 = key then (key, value) else other) = other := by
          intro other ho
          have hne : other.1 ≠ key := fun hk =>
            hnot (List.mem_map.mpr ⟨other, ho, hk.trans he.symm⟩)
          simp [hne]
        simp [assign, he, List.map_congr_left hrest]
      · have hin : (key, old) ∈ rest := by
          rcases List.mem_cons.mp hmem with heq | hin
          · exact absurd (congrArg Prod.fst heq).symm he
          · exact hin
        simp [assign, he, ih hin hrest]

-- The entries whose key is kept, as `{key: value for ... if keep(key)}`.
def restrict (d : Dict κ ν) (keep : κ → Bool) : Dict κ ν :=
  ⟨d.entries.filter (fun entry => keep entry.1),
    d.nodup.sublist ((List.filter_sublist).map Prod.fst)⟩

@[simp] theorem get?_restrict (d : Dict κ ν) (keep : κ → Bool) (key : κ) :
    (d.restrict keep).get? key = if keep key = true then d.get? key else none := by
  ext value
  rw [get?_eq_some_iff, restrict, List.mem_filter]
  split
  · next hkeep => simp [hkeep, get?_eq_some_iff]
  · next hkeep => simp [hkeep]

theorem mem_keys_iff (d : Dict κ ν) (key : κ) :
    key ∈ d.entries.map Prod.fst ↔ ∃ value, d.get? key = some value := by
  simp only [List.mem_map, Prod.exists, exists_and_right, exists_eq_right, get?_eq_some_iff]

theorem values_eq_filterMap (d : Dict κ ν) :
    d.values = (d.entries.map Prod.fst).filterMap d.get? := by
  rw [List.filterMap_map, values, ← List.filterMap_eq_map]
  refine List.filterMap_congr fun entry hentry => ?_
  exact ((d.get?_eq_some_iff entry.1 entry.2).mpr hentry).symm

-- As many entries as there are keys.
theorem length_eq_card (d : Dict κ ν) {keys : Finset κ}
    (h : ∀ key, key ∈ keys ↔ ∃ value, d.get? key = some value) :
    d.entries.length = keys.card := by
  have hkeys : keys = (d.entries.map Prod.fst).toFinset := by
    ext key
    rw [h, List.mem_toFinset, mem_keys_iff]
  rw [hkeys, List.toFinset_card_of_nodup d.nodup, List.length_map]

-- The keys whose value meets a test, in order of insertion.
def keysWhere (d : Dict κ ν) (test : ν → Bool) : List κ :=
  (d.entries.filter fun entry => test entry.2).map Prod.fst

omit [DecidableEq κ] in
theorem nodup_keysWhere (d : Dict κ ν) (test : ν → Bool) : (d.keysWhere test).Nodup :=
  d.nodup.sublist ((List.filter_sublist).map Prod.fst)

theorem mem_keysWhere (d : Dict κ ν) (test : ν → Bool) (key : κ) :
    key ∈ d.keysWhere test ↔ ∃ value ∈ d.get? key, test value := by
  simp only [keysWhere, List.mem_map, List.mem_filter, Prod.exists, exists_and_right,
    exists_eq_right, Option.mem_def, get?_eq_some_iff]

end Dict

end Library
