import Mathlib.Data.List.Sort
import Mathlib.Data.List.Lex

/-! Finite maps in insertion order: every key once, a later assignment keeps
the place of the first one. -/

namespace Dict

variable {κ ν : Type*}

def assign [DecidableEq κ] (key : κ) (value : ν) : List (κ × ν) → List (κ × ν)
  | [] => [(key, value)]
  | entry :: rest =>
    if entry.1 = key then (key, value) :: rest else entry :: assign key value rest

theorem mem_keys_assign [DecidableEq κ] {key k : κ} {value : ν} {entries : List (κ × ν)} :
    k ∈ (assign key value entries).map Prod.fst ↔ k = key ∨ k ∈ entries.map Prod.fst := by
  induction entries with
  | nil => simp [assign]
  | cons entry rest ih =>
    by_cases he : entry.1 = key
    · simp only [assign, he, if_true, List.map_cons, List.mem_cons]
      tauto
    · simp only [assign, he, if_false, List.map_cons, List.mem_cons, ih]
      tauto

theorem mem_assign [DecidableEq κ] {key : κ} {value : ν} {entries : List (κ × ν)} {entry : κ × ν}
    (h : entry ∈ assign key value entries) : entry = (key, value) ∨ entry ∈ entries := by
  induction entries with
  | nil => exact .inl (List.mem_singleton.mp h)
  | cons first rest ih =>
    rw [assign] at h
    split at h
    · exact (List.mem_cons.mp h).imp_right (List.mem_cons_of_mem first)
    · rcases List.mem_cons.mp h with rfl | hrest
      · exact .inr List.mem_cons_self
      · exact (ih hrest).imp_right (List.mem_cons_of_mem first)

theorem nodup_assign [DecidableEq κ] {key : κ} {value : ν} {entries : List (κ × ν)}
    (hnd : (entries.map Prod.fst).Nodup) : ((assign key value entries).map Prod.fst).Nodup := by
  induction entries with
  | nil => simp [assign]
  | cons entry rest ih =>
    have hc := List.nodup_cons.mp hnd
    by_cases he : entry.1 = key
    · simpa only [assign, he, if_true, List.map_cons] using hnd
    · simp only [assign, he, if_false, List.map_cons, List.nodup_cons, mem_keys_assign]
      exact ⟨fun h => h.elim id hc.1, ih hc.2⟩

theorem lookup_cons_of_ne [DecidableEq κ] {key k : κ} (value : ν) (rest : List (κ × ν))
    (hk : k ≠ key) : ((key, value) :: rest).lookup k = rest.lookup k := by
  simp [List.lookup_cons, beq_eq_false_iff_ne.mpr hk]

theorem lookup_assign [DecidableEq κ] (key k : κ) (value : ν) (entries : List (κ × ν)) :
    (assign key value entries).lookup k = if k = key then some value else entries.lookup k := by
  induction entries with
  | nil => by_cases hk : k = key <;> simp [assign, hk]
  | cons entry rest ih =>
    obtain ⟨key', value'⟩ := entry
    by_cases he : key' = key
    · by_cases hk : k = key
      · simp [assign, he, hk]
      · simp only [assign, he, if_true, lookup_cons_of_ne _ _ hk, if_neg hk]
    · by_cases hk : k = key'
      · simp [assign, he, hk]
      · simp only [assign, he, if_false, lookup_cons_of_ne _ _ hk, ih]

theorem lookup_eq_none [DecidableEq κ] {entries : List (κ × ν)} {key : κ}
    (h : ∀ entry ∈ entries, entry.1 ≠ key) : entries.lookup key = none := by
  induction entries with
  | nil => rfl
  | cons entry rest ih =>
    obtain ⟨hentry, hrest⟩ := List.forall_mem_cons.mp h
    rw [lookup_cons_of_ne entry.2 rest hentry.symm, ih hrest]

theorem lookup_eq_some_iff_mem [DecidableEq κ] {entries : List (κ × ν)}
    (hnd : (entries.map Prod.fst).Nodup) {key : κ} {value : ν} :
    entries.lookup key = some value ↔ (key, value) ∈ entries := by
  induction entries with
  | nil => simp
  | cons entry rest ih =>
    have hc := List.nodup_cons.mp hnd
    obtain ⟨key', value'⟩ := entry
    by_cases hk : key = key'
    · subst hk
      have hrest : (key, value) ∉ rest := fun hm => hc.1 (List.mem_map.mpr ⟨_, hm, rfl⟩)
      simp [hrest, eq_comm]
    · simpa only [lookup_cons_of_ne _ _ hk, List.mem_cons, Prod.mk.injEq, hk, false_and,
        false_or] using ih hc.2

end Dict

/-- A map with distinct keys, in the order in which they were first set. -/
structure Dict (κ ν : Type*) where
  entries : List (κ × ν)
  nodup : (entries.map Prod.fst).Nodup

namespace Dict

variable {κ ν : Type*}

def empty : Dict κ ν := ⟨[], List.nodup_nil⟩

def set [DecidableEq κ] (d : Dict κ ν) (key : κ) (value : ν) : Dict κ ν :=
  ⟨assign key value d.entries, nodup_assign d.nodup⟩

def get? [DecidableEq κ] (d : Dict κ ν) (key : κ) : Option ν := d.entries.lookup key

@[simp] theorem get?_empty [DecidableEq κ] (key : κ) : (empty : Dict κ ν).get? key = none := rfl

@[simp] theorem get?_set [DecidableEq κ] (d : Dict κ ν) (key k : κ) (value : ν) :
    (d.set key value).get? k = if k = key then some value else d.get? k :=
  lookup_assign key k value d.entries

def lastOf [DecidableEq κ] (pairs : List (κ × ν)) (key : κ) : Option ν := pairs.reverse.lookup key

theorem lastOf_eq_none [DecidableEq κ] {pairs : List (κ × ν)} {key : κ} (h : ∀ pair ∈ pairs, pair.1 ≠ key) :
    lastOf pairs key = none :=
  lookup_eq_none fun pair hpair => h pair (List.mem_reverse.mp hpair)

theorem lastOf_eq_some_iff_mem [DecidableEq κ] {pairs : List (κ × ν)}
    (hnd : (pairs.map Prod.fst).Nodup) {key : κ} {value : ν} :
    lastOf pairs key = some value ↔ (key, value) ∈ pairs := by
  have hrev : (pairs.reverse.map Prod.fst).Nodup := by
    rw [List.map_reverse]
    exact List.nodup_reverse.mpr hnd
  rw [lastOf, lookup_eq_some_iff_mem hrev, List.mem_reverse]

def setAll [DecidableEq κ] (d : Dict κ ν) (pairs : List (κ × ν)) : Dict κ ν :=
  pairs.foldl (fun d pair => d.set pair.1 pair.2) d

theorem get?_setAll [DecidableEq κ] (d : Dict κ ν) (pairs : List (κ × ν)) (k : κ) :
    (d.setAll pairs).get? k = (lastOf pairs k).or (d.get? k) := by
  rw [lastOf]
  induction pairs generalizing d with
  | nil => simp [setAll]
  | cons pair pairs ih =>
    have hstep : (d.setAll (pair :: pairs)).get? k = ((d.set pair.1 pair.2).setAll pairs).get? k := rfl
    rw [hstep, ih, get?_set, List.reverse_cons, List.lookup_append, Option.or_assoc]
    obtain ⟨key, value⟩ := pair
    by_cases hk : k = key
    · simp [hk]
    · simp only [lookup_cons_of_ne _ _ hk, List.lookup_nil, if_neg hk, Option.none_or]

theorem mem_keys_setAll [DecidableEq κ] {d : Dict κ ν} {pairs : List (κ × ν)} {k : κ} :
    k ∈ (d.setAll pairs).entries.map Prod.fst ↔ k ∈ pairs.map Prod.fst ∨ k ∈ d.entries.map Prod.fst := by
  induction pairs generalizing d with
  | nil => simp [setAll]
  | cons pair pairs ih =>
    have hstep : d.setAll (pair :: pairs) = (d.set pair.1 pair.2).setAll pairs := rfl
    have hset : k ∈ (d.set pair.1 pair.2).entries.map Prod.fst ↔ k = pair.1 ∨ k ∈ d.entries.map Prod.fst :=
      mem_keys_assign
    rw [hstep, ih, hset, List.map_cons, List.mem_cons]
    tauto

theorem mem_setAll [DecidableEq κ] {d : Dict κ ν} {pairs : List (κ × ν)} {entry : κ × ν}
    (h : entry ∈ (d.setAll pairs).entries) : entry ∈ pairs ∨ entry ∈ d.entries := by
  induction pairs generalizing d with
  | nil => exact .inr h
  | cons pair pairs ih =>
    rcases @ih (d.set pair.1 pair.2) h with hpairs | hset
    · exact .inl (List.mem_cons_of_mem pair hpairs)
    · rcases mem_assign hset with rfl | hentry
      · exact .inl List.mem_cons_self
      · exact .inr hentry

theorem get?_eq_some_iff_mem [DecidableEq κ] {d : Dict κ ν} {key : κ} {value : ν} :
    d.get? key = some value ↔ (key, value) ∈ d.entries := lookup_eq_some_iff_mem d.nodup

variable [LinearOrder κ]

def sorted (d : Dict κ ν) : List (κ × ν) := d.entries.insertionSort (fun a b => a.1 ≤ b.1)

theorem sorted_perm (d : Dict κ ν) : d.sorted.Perm d.entries := List.perm_insertionSort _ _

@[simp] theorem mem_sorted {d : Dict κ ν} {entry : κ × ν} : entry ∈ d.sorted ↔ entry ∈ d.entries :=
  d.sorted_perm.mem_iff

theorem sorted_pairwise (d : Dict κ ν) : d.sorted.Pairwise (fun a b => a.1 < b.1) := by
  have htotal : Std.Total fun a b : κ × ν => a.1 ≤ b.1 := ⟨fun a b => le_total a.1 b.1⟩
  have htrans : IsTrans (κ × ν) fun a b => a.1 ≤ b.1 := ⟨fun _ _ _ hab hbc => hab.trans hbc⟩
  have hle : d.sorted.Pairwise (fun a b => a.1 ≤ b.1) := List.pairwise_insertionSort _ d.entries
  have hne : d.sorted.Pairwise (fun a b => a.1 ≠ b.1) :=
    List.pairwise_map.mp ((d.sorted_perm.map Prod.fst).nodup_iff.mpr d.nodup)
  exact hle.imp₂ (fun _ _ hab hne => lt_of_le_of_ne hab hne) hne

/-- The order in which the entries were set does not matter. -/
theorem sorted_eq_of_perm {d d' : Dict κ ν} (h : d.entries.Perm d'.entries) : d.sorted = d'.sorted := by
  have hperm : d.sorted.Perm d'.sorted := (d.sorted_perm.trans h).trans d'.sorted_perm.symm
  refine hperm.eq_of_pairwise (fun a b _ _ hab hba => ?_) d.sorted_pairwise d'.sorted_pairwise
  exact absurd hba hab.asymm

theorem sorted_map_pairwise_iff {ι : Type*} [Preorder ι] (d : Dict κ ν) (f : κ → ι) :
    (d.sorted.map fun entry => f entry.1).Pairwise (· < ·) ↔
      ∀ a ∈ d.entries, ∀ b ∈ d.entries, a.1 < b.1 → f a.1 < f b.1 := by
  rw [List.pairwise_map]
  constructor
  · intro h a ha b hb hab
    obtain ⟨i, hi, rfl⟩ := List.getElem_of_mem (mem_sorted.mpr ha)
    obtain ⟨j, hj, rfl⟩ := List.getElem_of_mem (mem_sorted.mpr hb)
    have hsorted := List.pairwise_iff_getElem.mp d.sorted_pairwise
    rcases lt_trichotomy i j with hij | hij | hij
    · exact List.pairwise_iff_getElem.mp h i j hi hj hij
    · subst hij
      exact absurd hab (lt_irrefl _)
    · exact absurd hab (hsorted j i hj hi hij).asymm
  · intro h
    exact d.sorted_pairwise.imp_of_mem fun ha hb hab => h _ (mem_sorted.mp ha) _ (mem_sorted.mp hb) hab

theorem sorted_eq_nil {d : Dict κ ν} : d.sorted = [] ↔ d.entries = [] := by
  simp only [← List.length_eq_zero_iff, d.sorted_perm.length_eq]

/-- Of the entries whose key satisfies `p` there is one only. -/
theorem filter_sorted_eq_singleton_iff {d : Dict κ ν} {key : κ} {value : ν} {p : κ → Bool} (hp : p key)
    (hset : (key, value) ∈ d.entries) :
    d.sorted.filter (fun entry => p entry.1) = [(key, value)] ↔
      ∀ k ∈ d.entries.map Prod.fst, p k → k = key := by
  constructor
  · intro honly k hk hpk
    obtain ⟨entry, hentry, rfl⟩ := List.mem_map.mp hk
    have hmem : entry ∈ d.sorted.filter fun entry => p entry.1 :=
      List.mem_filter.mpr ⟨mem_sorted.mpr hentry, hpk⟩
    rw [honly, List.mem_singleton] at hmem
    rw [hmem]
  · intro hkeys
    have hnodup : (d.sorted.filter fun entry => p entry.1).Nodup :=
      (d.sorted_perm.nodup_iff.mpr (List.Nodup.of_map _ d.nodup)).filter _
    refine List.perm_singleton.mp ((List.perm_ext_iff_of_nodup hnodup (List.nodup_singleton _)).mpr fun entry => ?_)
    rw [List.mem_singleton, List.mem_filter, mem_sorted]
    constructor
    · rintro ⟨hentry, hpentry⟩
      have hkey := hkeys entry.1 (List.mem_map_of_mem hentry) hpentry
      exact List.inj_on_of_nodup_map d.nodup hentry hset hkey
    · rintro rfl
      exact ⟨hset, hp⟩

end Dict
