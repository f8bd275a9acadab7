import Mathlib.Data.List.Basic
import Mathlib.Data.List.DropRight

/-! Lists as lines: cutting at the first separator, and the non-empty pieces
between separators. -/

namespace Separator

variable {α : Type*}

theorem mem_intercalate {sep x : α} {lines : List (List α)} (h : x ∈ [sep].intercalate lines) :
    x = sep ∨ ∃ line ∈ lines, x ∈ line := by
  induction lines with
  | nil => simp [List.intercalate] at h
  | cons line lines ih =>
    cases lines with
    | nil => exact .inr ⟨line, by simp, by simpa [List.intercalate] using h⟩
    | cons next lines =>
      rw [List.intercalate_cons_cons, List.append_assoc, List.singleton_append, List.mem_append,
        List.mem_cons] at h
      rcases h with h | h | h
      · exact .inr ⟨line, by simp, h⟩
      · exact .inl h
      · exact (ih h).imp_right fun ⟨l, hl, hx⟩ => ⟨l, List.mem_cons_of_mem _ hl, hx⟩

theorem mem_intercalate_of_mem {sep x : α} {line : List α} {lines : List (List α)}
    (hl : line ∈ lines) (hx : x ∈ line) : x ∈ [sep].intercalate lines := by
  induction lines with
  | nil => simp at hl
  | cons first lines ih =>
    cases lines with
    | nil =>
      have : line = first := by simpa using hl
      simpa [List.intercalate, ← this] using hx
    | cons next lines =>
      rw [List.intercalate_cons_cons, List.append_assoc, List.singleton_append, List.mem_append,
        List.mem_cons]
      rcases List.mem_cons.mp hl with rfl | hl
      · exact .inl hx
      · exact .inr (.inr (ih hl))

variable [DecidableEq α]

def cut (sep : α) : List α → Option (List α × List α)
  | [] => none
  | x :: xs => if x = sep then some ([], xs) else (cut sep xs).map fun (l, r) => (x :: l, r)

theorem cut_append {sep : α} {l : List α} (h : sep ∉ l) (r : List α) :
    cut sep (l ++ sep :: r) = some (l, r) := by
  induction l with
  | nil => simp [cut]
  | cons x xs ih =>
    have hx : x ≠ sep := fun he => h (by simp [he])
    have hxs : sep ∉ xs := fun hm => h (List.mem_cons_of_mem _ hm)
    simp [cut, hx, ih hxs]

theorem cut_eq_none {sep : α} {l : List α} : cut sep l = none ↔ sep ∉ l := by
  induction l with
  | nil => simp [cut]
  | cons x xs ih =>
    by_cases hx : x = sep
    · simp [cut, hx]
    · simp [cut, hx, ih, Ne.symm hx]

theorem cut_eq_some {sep : α} {l a b : List α} (h : cut sep l = some (a, b)) :
    l = a ++ sep :: b ∧ sep ∉ a := by
  induction l generalizing a with
  | nil => simp [cut] at h
  | cons x xs ih =>
    by_cases hx : x = sep
    · simp only [cut, hx, if_true, Option.some.injEq, Prod.mk.injEq] at h
      obtain ⟨rfl, rfl⟩ := h
      simp [hx]
    · simp only [cut, hx, if_false, Option.map_eq_some_iff, Prod.exists, Prod.mk.injEq] at h
      obtain ⟨a', b', hc, rfl, rfl⟩ := h
      have hh := ih hc
      exact ⟨by simp [← hh.1], by simp [hh.2, Ne.symm hx]⟩

theorem cut_rest_length {sep : α} {l a b : List α} (h : cut sep l = some (a, b)) :
    b.length < l.length := by
  have he := (cut_eq_some h).1
  simp only [he, List.length_append, List.length_cons]
  omega

/-- The non-empty pieces between separators. -/
def pieces (sep : α) (l : List α) : List (List α) := (l.splitOn sep).filter (· ≠ [])

theorem pieces_nil (sep : α) : pieces sep [] = [] := by simp [pieces, List.splitOn_nil]

theorem pieces_append_cons (sep : α) (l r : List α) :
    pieces sep (l ++ sep :: r) = pieces sep l ++ pieces sep r := by
  simp only [pieces, List.splitOn_append_cons_self, List.filter_append]

theorem pieces_cons (sep : α) (l : List α) : pieces sep (sep :: l) = pieces sep l := by
  simpa only [List.nil_append, pieces_nil] using pieces_append_cons sep [] l

theorem pieces_concat (sep : α) (l : List α) : pieces sep (l ++ [sep]) = pieces sep l := by
  simpa only [pieces_nil, List.append_nil] using pieces_append_cons sep l []

theorem pieces_of_notMem {sep : α} {l : List α} (hsep : sep ∉ l) (hl : l ≠ []) :
    pieces sep l = [l] := by
  simp [pieces, List.splitOn_eq_singleton hsep, hl]

theorem pieces_ne_nil_of_head {sep x : α} {l : List α} (hx : x ≠ sep) : pieces sep (x :: l) ≠ [] := by
  cases hc : cut sep (x :: l) with
  | none => simp [pieces_of_notMem (cut_eq_none.mp hc)]
  | some split =>
    obtain ⟨a, b⟩ := split
    obtain ⟨he, ha⟩ := cut_eq_some hc
    cases a with
    | nil => exact absurd (List.cons.inj he).1 hx
    | cons y a =>
      rw [he, pieces_append_cons, pieces_of_notMem ha (by simp)]
      simp

theorem pieces_eq_nil_iff {sep : α} {l : List α} : pieces sep l = [] ↔ ∀ x ∈ l, x = sep := by
  induction l with
  | nil => simp [pieces_nil]
  | cons x l ih =>
    by_cases hx : x = sep
    · simp [hx, pieces_cons, ih]
    · simp [hx, pieces_ne_nil_of_head hx]

theorem pieces_intercalate (sep : α) (lines : List (List α)) :
    pieces sep ([sep].intercalate lines) = lines.flatMap (pieces sep) := by
  induction lines with
  | nil => simp [List.intercalate, pieces_nil]
  | cons line lines ih =>
    cases lines with
    | nil => simp [List.intercalate]
    | cons next lines =>
      rw [List.intercalate_cons_cons, List.append_assoc, List.singleton_append, pieces_append_cons, ih]
      exact (List.flatMap_cons ..).symm

/-- Python's `strip` with one character. -/
def strip (sep : α) (l : List α) : List α :=
  (l.dropWhile (· = sep)).rdropWhile (· = sep)

theorem pieces_dropWhile (sep : α) (l : List α) :
    pieces sep (l.dropWhile (· = sep)) = pieces sep l := by
  induction l with
  | nil => rfl
  | cons x xs ih =>
    by_cases hx : x = sep
    · simp [hx, ih, pieces_cons]
    · simp [hx]

theorem pieces_rdropWhile (sep : α) (l : List α) :
    pieces sep (l.rdropWhile (· = sep)) = pieces sep l := by
  induction l using List.reverseRecOn with
  | nil => simp
  | append_singleton l x ih =>
    by_cases hx : x = sep
    · rw [hx, List.rdropWhile_concat_pos _ _ _ (by simp), ih, pieces_concat]
    · rw [List.rdropWhile_concat_neg _ _ _ (by simpa using hx)]

theorem pieces_strip (sep : α) (l : List α) : pieces sep (strip sep l) = pieces sep l := by
  rw [strip, pieces_rdropWhile, pieces_dropWhile]

theorem strip_eq_nil_iff {sep : α} {l : List α} : strip sep l = [] ↔ pieces sep l = [] := by
  rw [← pieces_strip]
  refine ⟨fun h => by rw [h, pieces_nil], fun h => ?_⟩
  by_contra hne
  -- the last character that was kept is no separator
  have hlast := List.rdropWhile_last_not (· = sep) (l.dropWhile (· = sep)) hne
  have he := pieces_eq_nil_iff.mp h _ (List.getLast_mem hne)
  exact hlast (decide_eq_true he)

theorem mem_dropWhile_of_ne {sep x : α} (hx : x ≠ sep) {l : List α} :
    x ∈ l.dropWhile (· = sep) ↔ x ∈ l := by
  induction l with
  | nil => rfl
  | cons y l ih =>
    by_cases hy : y = sep
    · simp [hy, ih, hx]
    · simp [hy]

theorem mem_strip_of_ne {sep x : α} (hx : x ≠ sep) {l : List α} : x ∈ strip sep l ↔ x ∈ l := by
  simp only [strip, List.rdropWhile, List.mem_reverse, mem_dropWhile_of_ne hx]

/-! Elements that are written out in turn, the separator as a mark that the others
do not have. -/

section Written

variable {β γ : Type*} {sep : β} {mark : γ} {f : β → List γ}

structure Encodes (f : β → List γ) (sep : β) (mark : γ) : Prop where
  separator : f sep = [mark]
  others : ∀ x, x ≠ sep → f x ≠ [] ∧ mark ∉ f x

namespace Encodes

theorem flatMap_eq_nil_iff (h : Encodes f sep mark) {l : List β} : l.flatMap f = [] ↔ l = [] := by
  have hne : ∀ x, f x ≠ [] := by
    intro x
    by_cases hx : x = sep
    · simp [hx, h.separator]
    · exact (h.others x hx).1
  cases l with
  | nil => simp
  | cons x l => simp [hne x]

theorem mark_mem_iff (h : Encodes f sep mark) {l : List β} : mark ∈ l.flatMap f ↔ sep ∈ l := by
  rw [List.mem_flatMap]
  constructor
  · rintro ⟨x, hx, hmark⟩
    by_cases hsep : x = sep
    · exact hsep ▸ hx
    · exact absurd hmark (h.others x hsep).2
  · exact fun hsep => ⟨sep, hsep, by simp [h.separator]⟩

theorem intercalate_flatMap (h : Encodes f sep mark) (lines : List (List β)) :
    ([sep].intercalate lines).flatMap f = [mark].intercalate (lines.map (·.flatMap f)) := by
  induction lines with
  | nil => rfl
  | cons line lines ih =>
    cases lines with
    | nil => simp [List.intercalate]
    | cons next lines =>
      rw [List.intercalate_cons_cons, List.flatMap_append, List.flatMap_append, ih, List.flatMap_singleton,
        h.separator]
      simp only [List.map_cons, List.intercalate_cons_cons]

variable [DecidableEq β] [DecidableEq γ]

theorem dropWhile_flatMap (h : Encodes f sep mark) (l : List β) :
    (l.flatMap f).dropWhile (· = mark) = (l.dropWhile (· = sep)).flatMap f := by
  induction l with
  | nil => rfl
  | cons x l ih =>
    by_cases hx : x = sep
    · simp [hx, h.separator, ih]
    · obtain ⟨hne, hmark⟩ := h.others x hx
      obtain ⟨first, rest, hfx⟩ := List.exists_cons_of_ne_nil hne
      have hfirst : first ≠ mark := fun heq => hmark (by rw [hfx, heq]; exact List.mem_cons_self)
      simp [hx, hfx, hfirst]

theorem rdropWhile_flatMap (h : Encodes f sep mark) (l : List β) :
    (l.flatMap f).rdropWhile (· = mark) = (l.rdropWhile (· = sep)).flatMap f := by
  induction l using List.reverseRecOn with
  | nil => rfl
  | append_singleton l x ih =>
    rw [List.flatMap_append, List.flatMap_singleton]
    by_cases hx : x = sep
    · rw [hx, h.separator, List.rdropWhile_concat_pos _ _ _ (by simp), ih,
        List.rdropWhile_concat_pos _ _ _ (by simp)]
    · obtain ⟨hne, hmark⟩ := h.others x hx
      obtain ⟨init, last, hfx⟩ := (List.eq_nil_or_concat' (f x)).resolve_left hne
      have hlast : last ≠ mark := fun heq => hmark (by rw [hfx, heq]; simp)
      rw [hfx, ← List.append_assoc, List.rdropWhile_concat_neg _ _ _ (by simpa using hlast),
        List.rdropWhile_concat_neg _ _ _ (by simpa using hx), List.flatMap_append, List.flatMap_singleton, hfx,
        List.append_assoc]

theorem strip_flatMap (h : Encodes f sep mark) (l : List β) :
    strip mark (l.flatMap f) = (strip sep l).flatMap f := by
  rw [strip, strip, h.dropWhile_flatMap, h.rdropWhile_flatMap]

end Encodes

end Written

end Separator
