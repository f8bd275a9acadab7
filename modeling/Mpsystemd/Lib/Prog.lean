import Mathlib.Logic.Basic

/-! Programs that call an environment: what they do is fixed, what the calls
answer is not. The same program runs against a handler, step by step among
others, or against a contract. -/

/-- A program that makes the calls of `Op` and ends with a value. -/
inductive Prog (Op : Type) (Reply : Op → Type) (α : Type) : Type where
  | ret (value : α)
  | call (op : Op) (next : Reply op → Prog Op Reply α)

namespace Prog

variable {Op : Type} {Reply : Op → Type} {α β σ ρ : Type}

def bind : Prog Op Reply α → (α → Prog Op Reply β) → Prog Op Reply β
  | ret value, f => f value
  | call op next, f => call op fun reply => (next reply).bind f

theorem bind_assoc {γ : Type} (p : Prog Op Reply α) (f : α → Prog Op Reply β) (g : β → Prog Op Reply γ) :
    (p.bind f).bind g = p.bind fun a => (f a).bind g := by
  induction p with
  | ret value => rfl
  | call op next ih => exact congrArg (call op) (funext ih)

def run (handle : (op : Op) → σ → Reply op × σ) : Prog Op Reply α → σ → α × σ
  | ret value, s => (value, s)
  | call op next, s => (next (handle op s).1).run handle (handle op s).2

theorem run_bind (handle : (op : Op) → σ → Reply op × σ) (p : Prog Op Reply α)
    (f : α → Prog Op Reply β) (s : σ) :
    (p.bind f).run handle s = (f (p.run handle s).1).run handle (p.run handle s).2 := by
  induction p generalizing s with
  | ret value => rfl
  | call op next ih => exact ih _ _

/-- Which calls a program may make while it holds a resource, and with which
resource it holds after each answer. -/
structure Contract (Op : Type) (Reply : Op → Type) (ρ : Type) where
  permits : ρ → Op → Prop
  answers : ρ → (op : Op) → Reply op → ρ → Prop

/-- The program makes permitted calls only, whatever the answers, and ends
with a value and a resource in `post`. -/
def Obeys (C : Contract Op Reply ρ) (post : α → ρ → Prop) : Prog Op Reply α → ρ → Prop
  | ret value, r => post value r
  | call op next, r =>
    C.permits r op ∧ ∀ reply r', C.answers r op reply r' → (next reply).Obeys C post r'

theorem Obeys.mono {C : Contract Op Reply ρ} {post post' : α → ρ → Prop}
    (hpost : ∀ a r, post a r → post' a r) {p : Prog Op Reply α} {r : ρ}
    (h : p.Obeys C post r) : p.Obeys C post' r := by
  induction p generalizing r with
  | ret value => exact hpost _ _ h
  | call op next ih => exact ⟨h.1, fun reply r' ha => ih reply (h.2 reply r' ha)⟩

theorem obeys_of_permits {C : Contract Op Reply ρ} (hpermits : ∀ r op, C.permits r op) {post : α → ρ → Prop}
    (hpost : ∀ a r, post a r) (p : Prog Op Reply α) (r : ρ) : p.Obeys C post r := by
  induction p generalizing r with
  | ret value => exact hpost value r
  | call op next ih => exact ⟨hpermits r op, fun reply r' _ => ih reply r'⟩

theorem obeys_bind {C : Contract Op Reply ρ} {post : β → ρ → Prop} {p : Prog Op Reply α}
    {f : α → Prog Op Reply β} {r : ρ} :
    (p.bind f).Obeys C post r ↔ p.Obeys C (fun a r' => (f a).Obeys C post r') r := by
  induction p generalizing r with
  | ret value => rfl
  | call op next ih =>
    exact and_congr_right fun _ => forall_congr' fun reply => forall_congr' fun r' =>
      imp_congr_right fun _ => ih reply

/-- The handler's answers to permitted calls are among those of the contract,
where `R` relates the resource to the handler's state. -/
def Contract.HonouredBy (C : Contract Op Reply ρ) (handle : (op : Op) → σ → Reply op × σ)
    (R : ρ → σ → Prop) : Prop :=
  ∀ r op s, R r s → C.permits r op →
    ∃ r', C.answers r op (handle op s).1 r' ∧ R r' (handle op s).2

theorem Obeys.run {C : Contract Op Reply ρ} {handle : (op : Op) → σ → Reply op × σ}
    {R : ρ → σ → Prop} (hhonours : C.HonouredBy handle R)
    {post : α → ρ → Prop} {p : Prog Op Reply α} {r : ρ} {s : σ}
    (h : p.Obeys C post r) (hR : R r s) :
    ∃ r', post (p.run handle s).1 r' ∧ R r' (p.run handle s).2 := by
  induction p generalizing r s with
  | ret value => exact ⟨r, h, hR⟩
  | call op next ih =>
    obtain ⟨r', ha, hR'⟩ := hhonours r op s hR h.1
    exact ih _ (h.2 _ r' ha) hR'

/-! What a run calls. -/

abbrev Call (Op : Type) (Reply : Op → Type) : Type := (op : Op) × Reply op

/-- The calls of a run with what they answered. -/
def trace (handle : (op : Op) → σ → Reply op × σ) : Prog Op Reply α → σ → List (Call Op Reply)
  | ret _, _ => []
  | call op next, s => ⟨op, (handle op s).1⟩ :: (next (handle op s).1).trace handle (handle op s).2

theorem trace_bind (handle : (op : Op) → σ → Reply op × σ) (p : Prog Op Reply α)
    (f : α → Prog Op Reply β) (s : σ) :
    (p.bind f).trace handle s =
      p.trace handle s ++ (f (p.run handle s).1).trace handle (p.run handle s).2 := by
  induction p generalizing s with
  | ret value => rfl
  | call op next ih => exact congrArg (_ :: ·) (ih _ _)

/-- The contract whose resource also holds the calls made so far. -/
def Contract.recorded (C : Contract Op Reply ρ) : Contract Op Reply (ρ × List (Call Op Reply)) where
  permits r op := C.permits r.1 op
  answers r op reply r' := C.answers r.1 op reply r'.1 ∧ r'.2 = r.2 ++ [⟨op, reply⟩]

theorem Obeys.run_recorded {C : Contract Op Reply ρ} {handle : (op : Op) → σ → Reply op × σ}
    {R : ρ → σ → Prop} (hhonours : C.HonouredBy handle R)
    {post : α → ρ × List (Call Op Reply) → Prop} {p : Prog Op Reply α} {r : ρ}
    {calls : List (Call Op Reply)} {s : σ} (h : p.Obeys C.recorded post (r, calls)) (hR : R r s) :
    ∃ r', post (p.run handle s).1 (r', calls ++ p.trace handle s) ∧ R r' (p.run handle s).2 := by
  induction p generalizing r calls s with
  | ret value =>
    have hpost : post value (r, calls ++ []) := by rwa [List.append_nil]
    exact ⟨r, hpost, hR⟩
  | call op next ih =>
    obtain ⟨r', ha, hR'⟩ := hhonours r op s hR h.1
    obtain ⟨r'', hpost, hR''⟩ := ih _ (h.2 _ (r', _) ⟨ha, rfl⟩) hR'
    rw [List.append_assoc] at hpost
    exact ⟨r'', hpost, hR''⟩

/-! Programs that cannot be told apart. -/

/-- The programs make the same permitted calls and end with the same value, as long
as the answers are those of the contract. -/
inductive Agree (C : Contract Op Reply ρ) : Prog Op Reply α → Prog Op Reply α → ρ → Prop where
  | ret (value : α) (r : ρ) : Agree C (.ret value) (.ret value) r
  | call {op : Op} {next next' : Reply op → Prog Op Reply α} {r : ρ} (hpermits : C.permits r op)
      (hnext : ∀ reply r', C.answers r op reply r' → Agree C (next reply) (next' reply) r') :
      Agree C (.call op next) (.call op next') r

theorem Obeys.agree_self {C : Contract Op Reply ρ} {post : α → ρ → Prop} {p : Prog Op Reply α} {r : ρ}
    (h : p.Obeys C post r) : Agree C p p r := by
  induction p generalizing r with
  | ret value => exact .ret value r
  | call op next ih => exact .call h.1 fun reply r' ha => ih reply (h.2 reply r' ha)

theorem Agree.permitted {C : Contract Op Reply ρ} {p q : Prog Op Reply α} {r : ρ} (h : Agree C p q r) :
    p.Obeys C (fun _ _ => True) r := by
  induction h with
  | ret value r => exact trivial
  | call hpermits _ ih => exact ⟨hpermits, ih⟩

theorem Agree.bind {C : Contract Op Reply ρ} {p q : Prog Op Reply α} {f g : α → Prog Op Reply β} {r : ρ}
    (h : Agree C p q r) (hrest : p.Obeys C (fun a r' => Agree C (f a) (g a) r') r) :
    Agree C (p.bind f) (q.bind g) r := by
  induction h with
  | ret value r => exact hrest
  | call hpermits _ ih => exact .call hpermits fun reply r' ha => ih reply r' ha (hrest.2 reply r' ha)

theorem Agree.run {C : Contract Op Reply ρ} {handle : (op : Op) → σ → Reply op × σ}
    {R : ρ → σ → Prop} (hhonours : C.HonouredBy handle R) {p q : Prog Op Reply α} {r : ρ} {s : σ}
    (h : Agree C p q r) (hR : R r s) : p.run handle s = q.run handle s ∧ p.trace handle s = q.trace handle s := by
  induction h generalizing s with
  | ret value r => exact ⟨rfl, rfl⟩
  | @call op next next' r hpermits _ ih =>
    obtain ⟨r', ha, hR'⟩ := hhonours r op s hR hpermits
    obtain ⟨hrun, htrace⟩ := ih _ r' ha hR'
    exact ⟨hrun, congrArg (_ :: ·) htrace⟩

end Prog
