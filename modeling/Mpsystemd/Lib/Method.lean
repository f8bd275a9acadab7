import Mpsystemd.Lib.Prog

/-! Methods of an object: programs that read and write the object's attributes
and may raise, with the rules that bring one through a contract. -/

/-- A method: it reads and writes the attributes `σ` of its object, and ends
with a value or an exception. What it wrote before an exception stays written. -/
def Method (Op : Type) (Reply : Op → Type) (ε σ α : Type) : Type :=
  σ → Prog Op Reply (Except ε α × σ)

namespace Method

variable {Op : Type} {Reply : Op → Type} {ε σ τ α β γ ρ ω : Type}

def ret (a : α) : Method Op Reply ε σ α := fun s => .ret (.ok a, s)

def raise (e : ε) : Method Op Reply ε σ α := fun s => .ret (.error e, s)

def bind (m : Method Op Reply ε σ α) (f : α → Method Op Reply ε σ β) : Method Op Reply ε σ β :=
  fun s => (m s).bind fun
    | (.ok a, s') => f a s'
    | (.error e, s') => .ret (.error e, s')

instance : Monad (Method Op Reply ε σ) where
  pure := ret
  bind := bind

def call (op : Op) : Method Op Reply ε σ (Reply op) :=
  fun s => .call op fun reply => .ret (.ok reply, s)

def attributes : Method Op Reply ε σ σ := fun s => .ret (.ok s, s)

def update (f : σ → σ) : Method Op Reply ε σ Unit := fun s => .ret (.ok (), f s)

def lift (x : Except ε α) : Method Op Reply ε σ α := fun s => .ret (x, s)

/-- `try: m` with a handler for the exceptions it raises. -/
def handling (m : Method Op Reply ε σ α) (handler : ε → Method Op Reply ε σ α) :
    Method Op Reply ε σ α :=
  fun s => (m s).bind fun
    | (.ok a, s') => .ret (.ok a, s')
    | (.error e, s') => handler e s'

/-- `try: m finally: cleanup`. -/
def ensuring (m : Method Op Reply ε σ α) (cleanup : Method Op Reply ε σ Unit) :
    Method Op Reply ε σ α :=
  fun s => (m s).bind fun (result, s') => (cleanup s').bind fun
    | (.ok (), s'') => .ret (result, s'')
    | (.error e, s'') => .ret (.error e, s'')

/-- Calls a method of an object that is an attribute of this one. -/
def zoom (get : σ → τ) (set : σ → τ → σ) (m : Method Op Reply ε τ α) : Method Op Reply ε σ α :=
  fun s => (m (get s)).bind fun (result, t) => .ret (result, set s t)

theorem bind_assoc (m : Method Op Reply ε σ α) (f : α → Method Op Reply ε σ β)
    (g : β → Method Op Reply ε σ γ) : m >>= f >>= g = m >>= fun a => f a >>= g := by
  funext s
  refine (Prog.bind_assoc (m s) _ _).trans (congrArg (m s).bind (funext ?_))
  rintro ⟨result, s'⟩
  cases result with
  | ok a => rfl
  | error e => rfl

theorem lift_ok_bind {a : α} {f : α → Method Op Reply ε σ β} : (lift (.ok a) >>= f) = f a := rfl

theorem lift_bind (x : Except ε α) (f : α → Except ε β) :
    (lift (x >>= f) : Method Op Reply ε σ β) = lift x >>= fun a => lift (f a) := by
  cases x with
  | ok a => rfl
  | error e => rfl

def run (handle : (op : Op) → ω → Reply op × ω) (m : Method Op Reply ε σ α) (s : σ) (w : ω) :
    (Except ε α × σ) × ω :=
  (m s).run handle w

def trace (handle : (op : Op) → ω → Reply op × ω) (m : Method Op Reply ε σ α) (s : σ) (w : ω) :
    List (Prog.Call Op Reply) :=
  (m s).trace handle w

section Runs

variable {handle : (op : Op) → ω → Reply op × ω} {m : Method Op Reply ε σ α} {s : σ} {w : ω}

@[simp] theorem run_pure {a : α} :
    (pure a : Method Op Reply ε σ α).run handle s w = ((.ok a, s), w) := rfl

@[simp] theorem run_raise {e : ε} :
    (raise e : Method Op Reply ε σ α).run handle s w = ((.error e, s), w) := rfl

@[simp] theorem run_call {op : Op} : (call op : Method Op Reply ε σ (Reply op)).run handle s w =
    ((.ok (handle op w).1, s), (handle op w).2) := rfl

@[simp] theorem run_attributes :
    (attributes : Method Op Reply ε σ σ).run handle s w = ((.ok s, s), w) := rfl

@[simp] theorem run_update {f : σ → σ} :
    (update f : Method Op Reply ε σ Unit).run handle s w = ((.ok (), f s), w) := rfl

@[simp] theorem run_lift {x : Except ε α} :
    (lift x : Method Op Reply ε σ α).run handle s w = ((x, s), w) := rfl

@[simp] theorem run_bind {f : α → Method Op Reply ε σ β} :
    (m >>= f).run handle s w =
      match m.run handle s w with
      | ((.ok a, s'), w') => (f a).run handle s' w'
      | ((.error e, s'), w') => ((.error e, s'), w') := by
  refine (Prog.run_bind handle (m s) _ w).trans ?_
  rcases hm : m.run handle s w with ⟨⟨result, s'⟩, w'⟩
  rw [show (m s).run handle w = _ from hm]
  cases result with
  | ok a => rfl
  | error e => rfl

theorem run_bind_ok {f : α → Method Op Reply ε σ β} {a : α} {s' : σ} {w' : ω}
    (h : m.run handle s w = ((.ok a, s'), w')) :
    (m >>= f).run handle s w = (f a).run handle s' w' := by
  rw [run_bind, h]

theorem run_bind_error {f : α → Method Op Reply ε σ β} {e : ε} {s' : σ} {w' : ω}
    (h : m.run handle s w = ((.error e, s'), w')) :
    (m >>= f).run handle s w = ((.error e, s'), w') := by
  rw [run_bind, h]

theorem run_assoc {f : α → Method Op Reply ε σ β} {g : β → Method Op Reply ε σ γ} :
    (m >>= fun a => f a >>= g).run handle s w = (m >>= f >>= g).run handle s w := by
  rw [bind_assoc]

@[simp] theorem run_handling {handler : ε → Method Op Reply ε σ α} :
    (m.handling handler).run handle s w =
      match m.run handle s w with
      | ((.ok a, s'), w') => ((.ok a, s'), w')
      | ((.error e, s'), w') => (handler e).run handle s' w' := by
  refine (Prog.run_bind handle (m s) _ w).trans ?_
  rcases hm : m.run handle s w with ⟨⟨result, s'⟩, w'⟩
  rw [show (m s).run handle w = _ from hm]
  cases result with
  | ok a => rfl
  | error e => rfl

@[simp] theorem run_zoom {get : ρ → σ} {set : ρ → σ → ρ} {r : ρ} :
    (m.zoom get set).run handle r w =
      (((m.run handle (get r) w).1.1, set r (m.run handle (get r) w).1.2),
        (m.run handle (get r) w).2) :=
  Prog.run_bind handle (m (get r)) _ w

theorem run_zoom_eq {get : ρ → σ} {set : ρ → σ → ρ} {r : ρ} {result : Except ε α} {s' : σ} {w' : ω}
    (h : m.run handle (get r) w = ((result, s'), w')) :
    (m.zoom get set).run handle r w = ((result, set r s'), w') := by
  rw [run_zoom, h]

theorem trace_bind_ok {f : α → Method Op Reply ε σ β} {a : α} {s' : σ} {w' : ω}
    (h : m.run handle s w = ((.ok a, s'), w')) :
    (m >>= f).trace handle s w = m.trace handle s w ++ (f a).trace handle s' w' := by
  refine (Prog.trace_bind handle (m s) _ w).trans ?_
  rw [show (m s).run handle w = _ from h]
  rfl

theorem trace_bind_error {f : α → Method Op Reply ε σ β} {e : ε} {s' : σ} {w' : ω}
    (h : m.run handle s w = ((.error e, s'), w')) :
    (m >>= f).trace handle s w = m.trace handle s w := by
  refine (Prog.trace_bind handle (m s) _ w).trans ?_
  rw [show (m s).run handle w = _ from h]
  exact List.append_nil _

end Runs

/-- The postcondition that asks `ok` of a value and `err` of an exception. -/
def outcome (ok : α → σ → ρ → Prop) (err : ε → σ → ρ → Prop) : Except ε α × σ → ρ → Prop
  | (.ok a, s) => ok a s
  | (.error e, s) => err e s

theorem outcome_iff (post : Except ε α → σ → ρ → Prop) {final : Except ε α × σ} {r : ρ} :
    outcome (fun a => post (.ok a)) (fun e => post (.error e)) final r ↔ post final.1 final.2 r := by
  obtain ⟨result, s⟩ := final
  cases result with
  | ok a => exact Iff.rfl
  | error e => exact Iff.rfl

/-- From the attributes `s` and the resource `r` the method makes permitted
calls only, and ends with `ok` when it returns and with `err` when it raises. -/
def Obeys (m : Method Op Reply ε σ α) (C : Prog.Contract Op Reply ρ)
    (ok : α → σ → ρ → Prop) (err : ε → σ → ρ → Prop) (s : σ) (r : ρ) : Prop :=
  (m s).Obeys C (outcome ok err) r

section Rules

variable {C : Prog.Contract Op Reply ρ} {ok : α → σ → ρ → Prop} {err : ε → σ → ρ → Prop}
  {s : σ} {r : ρ}

theorem Obeys.mono {m : Method Op Reply ε σ α} {ok' : α → σ → ρ → Prop} {err' : ε → σ → ρ → Prop}
    (h : m.Obeys C ok err s r) (hok : ∀ a s r, ok a s r → ok' a s r)
    (herr : ∀ e s r, err e s r → err' e s r) : m.Obeys C ok' err' s r := by
  refine Prog.Obeys.mono ?_ h
  rintro ⟨result, s'⟩ r' hpost
  cases result with
  | ok a => exact hok a s' r' hpost
  | error e => exact herr e s' r' hpost

private theorem obeys_andThen {m : Method Op Reply ε σ α}
    {f : Except ε α × σ → Prog Op Reply (Except ε β × τ)} {post : Except ε β × τ → ρ → Prop} :
    ((m s).bind f).Obeys C post r ↔
      m.Obeys C (fun a s' r' => (f (.ok a, s')).Obeys C post r')
        (fun e s' r' => (f (.error e, s')).Obeys C post r') s r := by
  rw [Prog.obeys_bind, Obeys]
  constructor
  all_goals
    refine Prog.Obeys.mono ?_
    rintro ⟨result, s'⟩ r' h
    cases result with
    | ok a => exact h
    | error e => exact h

@[simp] theorem obeys_pure {a : α} : (pure a : Method Op Reply ε σ α).Obeys C ok err s r ↔ ok a s r :=
  Iff.rfl

@[simp] theorem obeys_raise {e : ε} :
    (raise e : Method Op Reply ε σ α).Obeys C ok err s r ↔ err e s r := Iff.rfl

@[simp] theorem obeys_lift_ok {a : α} :
    (lift (.ok a) : Method Op Reply ε σ α).Obeys C ok err s r ↔ ok a s r := Iff.rfl

@[simp] theorem obeys_lift_error {e : ε} :
    (lift (.error e) : Method Op Reply ε σ α).Obeys C ok err s r ↔ err e s r := Iff.rfl

@[simp] theorem obeys_attributes {ok : σ → σ → ρ → Prop} :
    (attributes : Method Op Reply ε σ σ).Obeys C ok err s r ↔ ok s s r := Iff.rfl

@[simp] theorem obeys_update {f : σ → σ} {ok : Unit → σ → ρ → Prop} :
    (update f : Method Op Reply ε σ Unit).Obeys C ok err s r ↔ ok () (f s) r := Iff.rfl

@[simp] theorem obeys_call {op : Op} {ok : Reply op → σ → ρ → Prop} :
    (call op : Method Op Reply ε σ (Reply op)).Obeys C ok err s r ↔
      C.permits r op ∧ ∀ reply r', C.answers r op reply r' → ok reply s r' := Iff.rfl

@[simp] theorem obeys_bind {m : Method Op Reply ε σ α} {f : α → Method Op Reply ε σ β}
    {ok : β → σ → ρ → Prop} :
    (m >>= f).Obeys C ok err s r ↔
      m.Obeys C (fun a s' r' => (f a).Obeys C ok err s' r') err s r := obeys_andThen

theorem obeys_assoc {m : Method Op Reply ε σ α} {f : α → Method Op Reply ε σ β}
    {g : β → Method Op Reply ε σ γ} {ok : γ → σ → ρ → Prop} :
    (m >>= fun a => f a >>= g).Obeys C ok err s r ↔
      (m >>= f).Obeys C (fun b s' r' => (g b).Obeys C ok err s' r') err s r := by
  rw [← bind_assoc, obeys_bind]

@[simp] theorem obeys_map {m : Method Op Reply ε σ α} {f : α → β} {ok : β → σ → ρ → Prop} :
    (f <$> m).Obeys C ok err s r ↔ m.Obeys C (fun a => ok (f a)) err s r := obeys_andThen

@[simp] theorem obeys_handling {m : Method Op Reply ε σ α} {handler : ε → Method Op Reply ε σ α} :
    (m.handling handler).Obeys C ok err s r ↔
      m.Obeys C ok (fun e s' r' => (handler e).Obeys C ok err s' r') s r := obeys_andThen

@[simp] theorem obeys_ensuring {m : Method Op Reply ε σ α} {cleanup : Method Op Reply ε σ Unit} :
    (m.ensuring cleanup).Obeys C ok err s r ↔
      m.Obeys C (fun a s' r' => cleanup.Obeys C (fun _ => ok a) err s' r')
        (fun e s' r' => cleanup.Obeys C (fun _ => err e) err s' r') s r := by
  refine obeys_andThen.trans ?_
  simp only [obeys_andThen]
  rfl

@[simp] theorem obeys_zoom {get : σ → τ} {set : σ → τ → σ} {m : Method Op Reply ε τ α} :
    (m.zoom get set).Obeys C ok err s r ↔
      m.Obeys C (fun a t => ok a (set s t)) (fun e t => err e (set s t)) (get s) r :=
  obeys_andThen

theorem Obeys.run {handle : (op : Op) → ω → Reply op × ω} {R : ρ → ω → Prop}
    (hhonours : C.HonouredBy handle R) {m : Method Op Reply ε σ α} {w : ω}
    (h : m.Obeys C ok err s r) (hR : R r w) :
    ∃ r', outcome ok err (m.run handle s w).1 r' ∧ R r' (m.run handle s w).2 :=
  Prog.Obeys.run hhonours h hR

theorem Obeys.run_recorded {handle : (op : Op) → ω → Reply op × ω} {R : ρ → ω → Prop}
    (hhonours : C.HonouredBy handle R) {m : Method Op Reply ε σ α} {w : ω}
    {ok : α → σ → ρ × List (Prog.Call Op Reply) → Prop} {err : ε → σ → ρ × List (Prog.Call Op Reply) → Prop}
    {calls : List (Prog.Call Op Reply)} (h : m.Obeys C.recorded ok err s (r, calls)) (hR : R r w) :
    ∃ r', outcome ok err (m.run handle s w).1 (r', calls ++ m.trace handle s w) ∧
      R r' (m.run handle s w).2 :=
  Prog.Obeys.run_recorded hhonours h hR

end Rules

/-- The methods make the same calls and end alike, from the attributes `s` and the
resource `r`, as long as the answers are those of the contract. -/
def Agree (C : Prog.Contract Op Reply ρ) (m m' : Method Op Reply ε σ α) (s : σ) (r : ρ) : Prop :=
  (m s).Agree C (m' s) r

section Agreement

variable {C : Prog.Contract Op Reply ρ} {ok : α → σ → ρ → Prop} {err : ε → σ → ρ → Prop}
  {m m' : Method Op Reply ε σ α} {s : σ} {r : ρ}

theorem Obeys.agree_self (h : m.Obeys C ok err s r) : Agree C m m s r := Prog.Obeys.agree_self h

theorem Agree.bind {f g : α → Method Op Reply ε σ β} (h : Agree C m m' s r)
    (hrest : m.Obeys C (fun a => Agree C (f a) (g a)) (fun _ _ _ => True) s r) :
    Agree C (m >>= f) (m' >>= g) s r := by
  refine Prog.Agree.bind h (Prog.Obeys.mono ?_ hrest)
  rintro ⟨result, s'⟩ r' hpost
  cases result with
  | ok a => exact hpost
  | error e => exact .ret _ r'

theorem Agree.handling {handler handler' : ε → Method Op Reply ε σ α} (h : Agree C m m' s r)
    (hrest : m.Obeys C (fun _ _ _ => True) (fun e => Agree C (handler e) (handler' e)) s r) :
    Agree C (m.handling handler) (m'.handling handler') s r := by
  refine Prog.Agree.bind h (Prog.Obeys.mono ?_ hrest)
  rintro ⟨result, s'⟩ r' hpost
  cases result with
  | ok a => exact .ret _ r'
  | error e => exact hpost

theorem Agree.ensuring {cleanup cleanup' : Method Op Reply ε σ Unit} (h : Agree C m m' s r)
    (hcleanup : m.Obeys C (fun _ s' r' => Agree C cleanup cleanup' s' r')
      (fun _ s' r' => Agree C cleanup cleanup' s' r')
      s r) : Agree C (m.ensuring cleanup) (m'.ensuring cleanup') s r := by
  refine Prog.Agree.bind h (Prog.Obeys.mono ?_ hcleanup)
  rintro ⟨result, s'⟩ r' hpost
  have hagree : Agree C cleanup cleanup' s' r' := by
    cases result with
    | ok a => exact hpost
    | error e => exact hpost
  refine Prog.Agree.bind hagree (Prog.Obeys.mono ?_ hagree.permitted)
  rintro ⟨cleaned, s''⟩ r'' -
  cases cleaned with
  | ok => exact .ret _ r''
  | error e => exact .ret _ r''

theorem Agree.zoom {get : σ → τ} {set : σ → τ → σ} {m m' : Method Op Reply ε τ α} (h : Agree C m m' (get s) r) :
    Agree C (m.zoom get set) (m'.zoom get set) s r :=
  Prog.Agree.bind h (Prog.Obeys.mono (fun _ r' _ => .ret _ r') h.permitted)

theorem Agree.run {handle : (op : Op) → ω → Reply op × ω} {R : ρ → ω → Prop}
    (hhonours : C.HonouredBy handle R) {w : ω} (h : Agree C m m' s r) (hR : R r w) :
    m.run handle s w = m'.run handle s w ∧ m.trace handle s w = m'.trace handle s w :=
  Prog.Agree.run hhonours h hR

end Agreement

end Method
