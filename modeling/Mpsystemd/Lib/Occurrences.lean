import Mathlib.Data.List.Infix

/-! How often a pattern occurs in a list, overlaps included, and when it occurs
at the end only. -/

namespace Occurrences

variable {α : Type*} {pattern l : List α}

/-- No occurrence of the pattern starts in the list when the pattern follows it. -/
def Apart (pattern l : List α) : Prop := ∀ tail ∈ l.tails, tail ≠ [] → ¬ pattern <+: tail ++ pattern

theorem apart_cons {a : α} :
    Apart pattern (a :: l) ↔ ¬ pattern <+: a :: l ++ pattern ∧ Apart pattern l := by
  rw [Apart, List.tails_cons, List.forall_mem_cons]
  exact and_congr_left fun _ => ⟨fun h => h (List.cons_ne_nil a l), fun h _ => h⟩

theorem not_apart_of_infix (hne : pattern ≠ []) (h : pattern <:+: l) (rest : List α) :
    ¬ Apart pattern (l ++ rest) := by
  obtain ⟨before, after, rfl⟩ := h
  intro hapart
  have htail : pattern ++ after ++ rest ∈ (before ++ pattern ++ after ++ rest).tails := by
    rw [List.mem_tails]
    exact ⟨before, by simp only [List.append_assoc]⟩
  have hprefix : pattern <+: pattern ++ after ++ rest ++ pattern :=
    ⟨after ++ rest ++ pattern, by simp only [List.append_assoc]⟩
  exact hapart _ htail (by simp [hne]) hprefix

variable [DecidableEq α]

def count (pattern : List α) : List α → Nat
  | [] => if pattern = [] then 1 else 0
  | a :: l => (if pattern <+: a :: l then 1 else 0) + count pattern l

/-- The list ends with the pattern, and holds it nowhere else. -/
def EndsOnce (pattern l : List α) : Prop := pattern <:+ l ∧ count pattern l = 1

instance (pattern l : List α) : Decidable (EndsOnce pattern l) := inferInstanceAs (Decidable (_ ∧ _))

instance (pattern l : List α) : Decidable (Apart pattern l) :=
  inferInstanceAs (Decidable (∀ tail ∈ l.tails, tail ≠ [] → ¬ pattern <+: tail ++ pattern))

theorem count_of_short (h : l.length < pattern.length) : count pattern l = 0 := by
  induction l with
  | nil =>
    have hne : pattern ≠ [] := List.length_pos_iff.mp h
    rw [count, if_neg hne]
  | cons a l ih =>
    have hnot : ¬ pattern <+: a :: l := fun hprefix => absurd hprefix.length_le (not_le.mpr h)
    rw [List.length_cons] at h
    rw [count, if_neg hnot, ih (by omega)]

theorem count_self (hne : pattern ≠ []) : count pattern pattern = 1 := by
  obtain ⟨a, l, rfl⟩ := List.exists_cons_of_ne_nil hne
  rw [count, if_pos List.prefix_rfl, count_of_short (by simp)]

theorem count_append_pos (hne : pattern ≠ []) (l : List α) : 0 < count pattern (l ++ pattern) := by
  induction l with
  | nil => rw [List.nil_append, count_self hne]; exact Nat.one_pos
  | cons a l ih =>
    rw [List.cons_append, count]
    omega

theorem count_append_eq_one_iff (hne : pattern ≠ []) :
    count pattern (l ++ pattern) = 1 ↔ Apart pattern l := by
  -- The last occurrence is always there, so the count is one when no other starts.
  induction l with
  | nil =>
    rw [List.nil_append]
    exact iff_of_true (count_self hne) (by simp [Apart])
  | cons a l ih =>
    have hpos := count_append_pos hne l
    rw [apart_cons, ← ih, List.cons_append, count]
    by_cases hhere : pattern <+: a :: (l ++ pattern)
    · rw [if_pos hhere]
      exact iff_of_false (by omega) fun h => h.1 hhere
    · rw [if_neg hhere, Nat.zero_add]
      exact ⟨fun h => ⟨hhere, h⟩, fun h => h.2⟩

theorem endsOnce_append_iff (hne : pattern ≠ []) : EndsOnce pattern (l ++ pattern) ↔ Apart pattern l := by
  rw [EndsOnce, count_append_eq_one_iff hne]
  exact and_iff_right (List.suffix_append l pattern)

end Occurrences
