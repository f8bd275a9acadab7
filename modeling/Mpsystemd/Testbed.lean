import Mpsystemd.Notices
import Mpsystemd.Receipt

/-! Notifiers, the module level functions and a listener in one process, as in a
test of a service: what the listener receives, and who holds which descriptor. -/

namespace Mpsystemd

open Struct (Machine)

/-- A notification of a notifier or of a module level function, a change of the
environment, a close of a notifier, a receipt of the listener, the close of a
received datagram's descriptors, the close of the listener. -/
inductive TestEvent where
  | notifies (i : Nat) (c : Notification)
  | calls (c : Notification)
  | setsEnvironment (env : Str → Option Str)
  | closesNotifier (i : Nat)
  | receives (timeoutMs : Int)
  | closesFds (j : Nat)
  | closesListener

/-- `hand` are the datagrams received, with the descriptors they still have;
`received` are the same as they were returned, each with the kernel that left. -/
structure Testbed where
  kernel : Kernel
  listener : FakeNotifyListener
  notifiers : Nat → Notifier
  hand : List Datagram
  told : List Notice
  received : List (Datagram × Kernel)

namespace Testbed

def start (kernel : Kernel) (listener : FakeNotifyListener) (notifiers : Nat → Notifier) : Testbed :=
  ⟨kernel, listener, notifiers, [], [], []⟩

def setNotifier (t : Testbed) (i : Nat) (n : Notifier) : Testbed :=
  { t with notifiers := Function.update t.notifiers i n }

/-- A receipt that ended so has put the datagram, if there is one, into hand. -/
def withReceipt (t : Testbed) (result : Except PyErr (Option Datagram)) (listener : FakeNotifyListener)
    (kernel : Kernel) : Testbed :=
  let arrived := match result with
    | .ok (some d) => [d]
    | _ => []
  { t with
    kernel := kernel
    listener := listener
    hand := t.hand ++ arrived
    received := t.received ++ arrived.map fun d => (d, kernel) }

/-- After a method of the notifier `i` that ended so. -/
def withNotice (t : Testbed) (i : Nat) (c : Notification) (outcome : (Except PyErr Bool × Notifier) × World) :
    Testbed :=
  { t.setNotifier i outcome.1.2 with
    kernel := outcome.2.kernel
    told := t.told ++ if outcome.1.1 = .ok true then [⟨t.notifiers i, t.kernel, c⟩] else [] }

/-- After a module level function that ended so. -/
def withCall (t : Testbed) (c : Notification) (outcome : (Except PyErr Bool × Unit) × World) : Testbed :=
  let notices := match Notifier.ofAddress ((t.kernel.env notifySocketEnv).map .text) with
    | .ok n => [⟨n, t.kernel, c⟩]
    | .error _ => []
  { t with
    kernel := outcome.2.kernel
    told := t.told ++ if outcome.1.1 = .ok true then notices else [] }

def step (rt : Runtime) (m : Machine) (t : Testbed) : TestEvent × (Nat → Choice) → Testbed
  | (.notifies i c, choices) => t.withNotice i c ((c.method rt).run (t.notifiers i) ⟨t.kernel, choices⟩)
  | (.calls c, choices) => t.withCall c ((c.function rt).run () ⟨t.kernel, choices⟩)
  | (.setsEnvironment env, _) => { t with kernel.env := env }
  | (.closesNotifier i, choices) =>
    let outcome := (Notifier.close rt).run (t.notifiers i) ⟨t.kernel, choices⟩
    { t.setNotifier i outcome.1.2 with kernel := outcome.2.kernel }
  | (.receives timeoutMs, choices) =>
    let outcome := (FakeNotifyListener.receive rt m timeoutMs).run t.listener ⟨t.kernel, choices⟩
    t.withReceipt outcome.1.1 outcome.1.2 outcome.2.kernel
  | (.closesFds j, choices) =>
    match t.hand[j]? with
    | none => t
    | some d =>
      let outcome := Datagram.closeFds.run d ⟨t.kernel, choices⟩
      { t with kernel := outcome.2.kernel, hand := t.hand.set j outcome.1.2 }
  | (.closesListener, choices) =>
    let outcome := (FakeNotifyListener.close rt).run t.listener ⟨t.kernel, choices⟩
    { t with kernel := outcome.2.kernel, listener := outcome.1.2 }

/-! Who holds a descriptor. -/

inductive Holder where
  | listener
  | notifier (i : Nat)
  | datagram
  deriving DecidableEq

def Holder.Keeps (index : Nat) : Holder → File → Prop
  | listener, file => file = .boundSocket index
  | notifier _, file => file = .socket
  | datagram, _ => True

def Holds (t : Testbed) (fd : Fd) : Holder → Prop
  | .listener => 0 ≤ fd ∧ t.listener.sock.fd = fd
  | .notifier i => ∃ sock, (t.notifiers i).sock = some sock ∧ sock.fd = fd
  | .datagram => ∃ d ∈ t.hand, fd ∈ d.fds

/-- Every descriptor that the process did not have before has one holder, and all
others are as before. -/
structure Accounted (base : Kernel) (index : Nat) (t : Testbed) : Prop where
  held : ∀ fd h, t.Holds fd h → 0 ≤ fd ∧ base.table fd = none ∧
    ∃ file, t.kernel.fileAt fd = some file ∧ h.Keeps index file
  unique : ∀ fd h h', t.Holds fd h → t.Holds fd h' → h = h'
  rest : ∀ fd, (∀ h, ¬ t.Holds fd h) → t.kernel.table fd = base.table fd
  nodup : (t.hand.flatMap Datagram.fds).Nodup
  missed : t.kernel.closes.count none = base.closes.count none

/-- A holder got the descriptors `new`, or gave up `gone`. -/
structure Change (index : Nat) (holder : Holder) (new gone : List Fd) (t t' : Testbed) : Prop where
  holds : ∀ fd h, t'.Holds fd h ↔ fd ∈ new ∧ h = holder ∨ fd ∉ gone ∧ t.Holds fd h
  fresh : ∀ fd ∈ new, 0 ≤ fd ∧ t.kernel.table fd = none
  opened : ∀ fd ∈ new, ∃ file, t'.kernel.fileAt fd = some file ∧ holder.Keeps index file
  shut : ∀ fd ∈ gone, t'.kernel.table fd = none ∧ t.Holds fd holder
  kept : ∀ fd, fd ∉ new → fd ∉ gone → t'.kernel.table fd = t.kernel.table fd
  missed : t'.kernel.closes.count none = t.kernel.closes.count none
  nodup : (t'.hand.flatMap Datagram.fds).Nodup

open FakeNotifyListener (Delivered delivered_handOut)

variable {rt : Runtime} {m : Machine} {base : Kernel} {index : Nat} {t t' : Testbed} {holder : Holder}
  {new gone : List Fd}

theorem Accounted.not_fresh (ht : t.Accounted base index) {fd : Fd} {h : Holder} (hfd : t.Holds fd h) :
    t.kernel.table fd ≠ none := by
  obtain ⟨-, -, file, hfile, -⟩ := ht.held fd h hfd
  intro hnone
  rw [Kernel.fileAt, hnone] at hfile
  cases hfile

theorem Accounted.free (ht : t.Accounted base index) {fd : Fd} (hfd : t.kernel.table fd = none) :
    (∀ h, ¬ t.Holds fd h) ∧ base.table fd = none := by
  have hnot : ∀ h, ¬ t.Holds fd h := fun h hh => ht.not_fresh hh hfd
  exact ⟨hnot, (ht.rest fd hnot).symm.trans hfd⟩

/-- The accounts after an event, which leaves the descriptors of the datagrams in
hand as they are. -/
structure Continues (base : Kernel) (index : Nat) (t t' : Testbed) : Prop where
  accounted : t'.Accounted base index
  kept : ∀ fd, t.Holds fd .datagram → t'.Holds fd .datagram → t'.kernel.table fd = t.kernel.table fd

theorem Accounted.change (ht : t.Accounted base index) (hc : Change index holder new gone t t') :
    t'.Accounted base index where
  held fd h hh := by
    rcases (hc.holds fd h).mp hh with ⟨hnew, rfl⟩ | ⟨hgone, hheld⟩
    · obtain ⟨hnonneg, hfree⟩ := hc.fresh fd hnew
      exact ⟨hnonneg, (ht.free hfree).2, hc.opened fd hnew⟩
    · obtain ⟨hnonneg, hbase, file, hfile, hkeeps⟩ := ht.held fd h hheld
      have hnew : fd ∉ new := fun hmem => ht.not_fresh hheld (hc.fresh fd hmem).2
      refine ⟨hnonneg, hbase, file, ?_, hkeeps⟩
      rw [Kernel.fileAt, hc.kept fd hnew hgone]
      exact hfile
  unique fd h h' hh hh' := by
    rcases (hc.holds fd h).mp hh with ⟨hnew, rfl⟩ | ⟨-, hheld⟩
    · rcases (hc.holds fd h').mp hh' with ⟨-, rfl⟩ | ⟨-, hheld'⟩
      · rfl
      · exact absurd (hc.fresh fd hnew).2 (ht.not_fresh hheld')
    · rcases (hc.holds fd h').mp hh' with ⟨hnew, -⟩ | ⟨-, hheld'⟩
      · exact absurd (hc.fresh fd hnew).2 (ht.not_fresh hheld)
      · exact ht.unique fd h h' hheld hheld'
  rest fd hnone := by
    have hnew : fd ∉ new := fun hmem => hnone holder ((hc.holds fd holder).mpr (.inl ⟨hmem, rfl⟩))
    by_cases hgone : fd ∈ gone
    · obtain ⟨hshut, hheld⟩ := hc.shut fd hgone
      rw [hshut, (ht.held fd holder hheld).2.1]
    · rw [hc.kept fd hnew hgone]
      exact ht.rest fd fun h hh => hnone h ((hc.holds fd h).mpr (.inr ⟨hgone, hh⟩))
  nodup := hc.nodup
  missed := hc.missed.trans ht.missed

theorem Accounted.continues (ht : t.Accounted base index) (hc : Change index holder new gone t t') :
    Continues base index t t' := by
  refine ⟨ht.change hc, fun fd hheld hheld' => ?_⟩
  have hnew : fd ∉ new := fun hmem => ht.not_fresh hheld (hc.fresh fd hmem).2
  rcases (hc.holds fd .datagram).mp hheld' with ⟨hmem, -⟩ | ⟨hgone, -⟩
  · exact absurd hmem hnew
  · exact hc.kept fd hnew hgone

/-! What each event changes. -/

theorem outcome_of_ends {σ α : Type} {method : Py σ α} {post : Except PyErr α → σ → Kernel → Prop} {s : σ}
    {w : World}
    (h : Py.Ends method (fun a => post (.ok a)) (fun e => post (.error e)) s w.kernel) :
    post (method.run s w).1.1 (method.run s w).1.2 (method.run s w).2.kernel :=
  (Method.outcome_iff post).mp h.run

theorem holds_setNotifier {i : Nat} {n : Notifier} {fd : Fd} {h : Holder} :
    (t.setNotifier i n).Holds fd h ↔
      h = .notifier i ∧ (∃ sock, n.sock = some sock ∧ sock.fd = fd) ∨ h ≠ .notifier i ∧ t.Holds fd h := by
  cases h with
  | notifier j =>
    by_cases hji : j = i
    · simp [Holds, setNotifier, hji]
    · simp [Holds, setNotifier, hji]
  | _ => simp [Holds, setNotifier]

theorem notified (rt : Runtime) {i : Nat} (hn : (t.notifiers i).Addressed) (c : Notification)
    (choices : Nat → Choice) :
    Notified rt ⟨t.notifiers i, t.kernel, c⟩
      (((c.method rt).run (t.notifiers i) ⟨t.kernel, choices⟩).1.1 = .ok true)
      ((c.method rt).run (t.notifiers i) ⟨t.kernel, choices⟩).1.2
      ((c.method rt).run (t.notifiers i) ⟨t.kernel, choices⟩).2.kernel :=
  @outcome_of_ends _ _ _ (fun result => Notified rt ⟨t.notifiers i, t.kernel, c⟩ (result = .ok true)) _
    ⟨t.kernel, choices⟩ (ends_notified hn)

/-- Every descriptor stays as it is. -/
theorem Accounted.withKernel (ht : t.Accounted base index) {k : Kernel} {told : List Notice}
    (htable : k.table = t.kernel.table) (hmissed : k.closes.count none = t.kernel.closes.count none) :
    Continues base index t { t with kernel := k, told := told } := by
  have hchange : Change index .listener [] [] t { t with kernel := k, told := told } := {
    holds := fun fd h => by
      cases h with
      | _ => simp [Holds]
    fresh := by simp
    opened := by simp
    shut := by simp
    kept := fun fd _ _ => congrFun htable fd
    missed := hmissed
    nodup := ht.nodup }
  exact ht.continues hchange

theorem Accounted.withNotifier (ht : t.Accounted base index) {i : Nat} {n : Notifier} {k : Kernel}
    {told : List Notice} (hsockets : (t.notifiers i).Sockets n t.kernel.table k.table)
    (hcloses : k.closes = t.kernel.closes) :
    Continues base index t { t.setNotifier i n with kernel := k, told := told } := by
  have hmissed : k.closes.count none = t.kernel.closes.count none := by rw [hcloses]
  rcases hsockets with ⟨rfl, htable⟩ | ⟨hsock, fd, peer, hfree, hsame, htable⟩
  · rw [setNotifier, Function.update_eq_self]
    exact ht.withKernel htable hmissed
  · have hholds : ∀ fd' h, (t.setNotifier i n).Holds fd' h ↔ fd' = fd ∧ h = .notifier i ∨ t.Holds fd' h := by
      intro fd' h
      rw [holds_setNotifier, hsame]
      by_cases hi : h = .notifier i
      · simp [hi, Holds, hsock, eq_comm]
      · simp [hi]
    have hchange : Change index (.notifier i) [(fd : Fd)] [] t
        { t.setNotifier i n with kernel := k, told := told } := {
      holds := fun fd' h => (hholds fd' h).trans (by simp)
      fresh := List.forall_mem_singleton.mpr ⟨Int.natCast_nonneg fd, hfree⟩
      opened := List.forall_mem_singleton.mpr ⟨.socket, by simp [Kernel.fileAt, htable], rfl⟩
      shut := by simp
      kept := fun fd' hnew _ => by
        have hne : fd' ≠ fd := fun heq => hnew (List.mem_singleton.mpr heq)
        exact (congrFun htable fd').trans (Function.update_of_ne hne ..)
      missed := hmissed
      nodup := ht.nodup }
    exact ht.continues hchange

/-- A close of the descriptor that the holder has. -/
theorem Accounted.shut (ht : t.Accounted base index) {fd : Fd} {file : File}
    (hfd : t.Holds fd holder) (hkernel : t'.kernel = t.kernel.shut fd file) (hhand : t'.hand = t.hand)
    (hholds : ∀ fd' h, t'.Holds fd' h ↔ fd' ≠ fd ∧ t.Holds fd' h) : Continues base index t t' := by
  have hchange : Change index holder [] [fd] t t' := {
    holds := fun fd' h => (hholds fd' h).trans (by simp)
    fresh := by simp
    opened := by simp
    shut := List.forall_mem_singleton.mpr ⟨by simp [hkernel, Kernel.shut], hfd⟩
    kept := fun fd' _ hgone => by
      have hne : fd' ≠ fd := fun heq => hgone (List.mem_singleton.mpr heq)
      rw [hkernel]
      exact Function.update_of_ne hne ..
    missed := by simp [hkernel, Kernel.shut, List.count_append]
    nodup := hhand ▸ ht.nodup }
  exact ht.continues hchange

theorem Accounted.withoutSocket (ht : t.Accounted base index) {i : Nat} {sock : UnixDatagram} {file : File}
    (hsock : (t.notifiers i).sock = some sock) :
    Continues base index t { t.setNotifier i { t.notifiers i with sock := none } with
      kernel := t.kernel.shut sock.fd file } := by
  have hfd : t.Holds sock.fd (.notifier i) := ⟨sock, hsock, rfl⟩
  refine ht.shut hfd rfl rfl fun fd h => ?_
  have hholds := @holds_setNotifier t i { t.notifiers i with sock := none } fd h
  refine Iff.trans hholds ?_
  by_cases hi : h = .notifier i
  · simp [hi, Holds, hsock, eq_comm]
  · have hne : t.Holds fd h → fd ≠ sock.fd := by
      rintro hh rfl
      exact hi (ht.unique sock.fd h (.notifier i) hh hfd)
    simp only [hi, false_and, ne_eq, not_false_eq_true, true_and, false_or]
    exact ⟨fun hh => ⟨hne hh, hh⟩, fun hh => hh.2⟩

theorem Accounted.withoutListener (ht : t.Accounted base index) {file : File} (h0 : 0 ≤ t.listener.sock.fd) :
    Continues base index t { t with
      kernel := t.kernel.shut t.listener.sock.fd file
      listener := t.listener.setSock { t.listener.sock with fd := -1 } } := by
  have hfd : t.Holds t.listener.sock.fd .listener := ⟨h0, rfl⟩
  refine ht.shut hfd rfl rfl fun fd h => ?_
  by_cases hlistener : h = .listener
  · subst hlistener
    simp only [Holds, FakeNotifyListener.setSock]
    constructor
    · rintro ⟨hnonneg, rfl⟩
      exact absurd hnonneg (by decide)
    · rintro ⟨hne, -, heq⟩
      exact absurd heq.symm hne
  · have hne : t.Holds fd h → fd ≠ t.listener.sock.fd := by
      rintro hh rfl
      exact hlistener (ht.unique _ h .listener hh hfd)
    have hsame : Holds { t with
        kernel := t.kernel.shut t.listener.sock.fd file
        listener := t.listener.setSock { t.listener.sock with fd := -1 } } fd h ↔ t.Holds fd h := by
      cases h with
      | listener => exact absurd rfl hlistener
      | _ => rfl
    rw [hsame]
    exact ⟨fun hh => ⟨hne hh, hh⟩, fun hh => hh.2⟩

theorem Accounted.withDatagram (ht : t.Accounted base index) {d : Datagram} {k : Kernel}
    {received : List (Datagram × Kernel)} (hnodup : d.fds.Nodup)
    (hfresh : ∀ fd ∈ d.fds, 0 ≤ fd ∧ t.kernel.table fd = none) (hopen : ∀ fd ∈ d.fds, (k.fileAt fd).isSome)
    (hrest : ∀ fd, fd ∉ d.fds → k.table fd = t.kernel.table fd)
    (hcloses : k.closes = t.kernel.closes) :
    Continues base index t { t with kernel := k, hand := t.hand ++ [d], received := received } := by
  have hchange : Change index .datagram d.fds [] t
      { t with kernel := k, hand := t.hand ++ [d], received := received } := {
    holds := fun fd h => by
      cases h with
      | datagram => simp [Holds, or_comm, or_and_right, exists_or]
      | _ => simp [Holds]
    fresh := hfresh
    opened := fun fd hfd => by
      obtain ⟨file, hfile⟩ := Option.isSome_iff_exists.mp (hopen fd hfd)
      exact ⟨file, hfile, trivial⟩
    shut := by simp
    kept := fun fd hnew _ => hrest fd hnew
    missed := by rw [show k.closes = _ from hcloses]
    nodup := by
      simp only [List.flatMap_append, List.flatMap_singleton, List.nodup_append]
      refine ⟨ht.nodup, hnodup, ?_⟩
      rintro fd hfd _ hnew rfl
      have hheld : t.Holds fd .datagram := List.mem_flatMap.mp hfd
      exact ht.not_fresh hheld (hfresh fd hnew).2 }
  exact ht.continues hchange

theorem flatMap_set {hand : List Datagram} {j : Nat} {d : Datagram} (hd : hand[j]? = some d) :
    ∃ before after, hand = before ++ d :: after ∧
      hand.set j { d with fds := [] } = before ++ { d with fds := [] } :: after := by
  obtain ⟨hlength, hget⟩ := List.getElem?_eq_some_iff.mp hd
  refine ⟨hand.take j, hand.drop (j + 1), ?_, List.set_eq_take_append_cons_drop.trans (if_pos hlength)⟩
  rw [← hget, List.getElem_cons_drop, List.take_append_drop]

theorem Accounted.withoutFds (ht : t.Accounted base index) {j : Nat} {d : Datagram} {k : Kernel}
    (hd : t.hand[j]? = some d) (hclosed : t.kernel.Closed k d.fds) :
    Continues base index t { t with kernel := k, hand := t.hand.set j { d with fds := [] } } := by
  obtain ⟨before, after, hhand, hset⟩ := flatMap_set hd
  have hnodup := ht.nodup
  rw [hhand, List.flatMap_append, List.flatMap_cons, List.nodup_append, List.nodup_append] at hnodup
  obtain ⟨hbefore, ⟨-, hafter, hlater⟩, hearlier⟩ := hnodup
  have hheld : ∀ fd ∈ d.fds, t.Holds fd .datagram := fun fd hfd => ⟨d, List.mem_of_getElem? hd, hfd⟩
  have hother : ∀ fd, fd ∈ before.flatMap Datagram.fds ∨ fd ∈ after.flatMap Datagram.fds → fd ∉ d.fds := by
    rintro fd (hmem | hmem) hfd
    · exact hearlier fd hmem fd (List.mem_append_left _ hfd) rfl
    · exact hlater fd hfd fd hmem rfl
  have hchange : Change index .datagram [] d.fds t
      { t with kernel := k, hand := t.hand.set j { d with fds := [] } } := {
    holds := fun fd h => by
      cases h with
      | datagram =>
        have hmem : Holds { t with kernel := k, hand := t.hand.set j { d with fds := [] } } fd .datagram ↔
            fd ∈ before.flatMap Datagram.fds ∨ fd ∈ after.flatMap Datagram.fds := by
          simp [Holds, hset, or_and_right, exists_or]
        have hmem' : t.Holds fd .datagram ↔
            fd ∈ before.flatMap Datagram.fds ∨ fd ∈ d.fds ∨ fd ∈ after.flatMap Datagram.fds := by
          simp [Holds, hhand, or_and_right, exists_or]
        rw [hmem, hmem']
        have := hother fd
        tauto
      | listener =>
        have hne : t.Holds fd .listener → fd ∉ d.fds := fun hh hfd =>
          nomatch ht.unique fd _ _ hh (hheld fd hfd)
        have hsame : Holds { t with kernel := k, hand := t.hand.set j { d with fds := [] } } fd .listener ↔
            t.Holds fd .listener := Iff.rfl
        rw [hsame]
        simpa using hne
      | notifier i =>
        have hne : t.Holds fd (.notifier i) → fd ∉ d.fds := fun hh hfd =>
          nomatch ht.unique fd _ _ hh (hheld fd hfd)
        have hsame : Holds { t with kernel := k, hand := t.hand.set j { d with fds := [] } } fd (.notifier i) ↔
            t.Holds fd (.notifier i) := Iff.rfl
        rw [hsame]
        simpa using hne
    fresh := by simp
    opened := by simp
    shut := fun fd hfd => ⟨(hclosed.table fd).trans (if_pos hfd), hheld fd hfd⟩
    kept := fun fd _ hgone => (hclosed.table fd).trans (if_neg hgone)
    missed := hclosed.missed
    nodup := by
      show ((t.hand.set j _).flatMap Datagram.fds).Nodup
      rw [hset, List.flatMap_append, List.flatMap_cons, List.nil_append, List.nodup_append]
      exact ⟨hbefore, hafter, fun fd hfd fd' hfd' => hearlier fd hfd fd' (List.mem_append_right _ hfd')⟩ }
  exact ht.continues hchange

/-! What is received. -/

theorem withReceipt_none : t.withReceipt (.ok none) t.listener t.kernel = t := by simp [withReceipt]

theorem withReceipt_error (e : PyErr) : t.withReceipt (.error e) t.listener t.kernel = t := by simp [withReceipt]

/-- The datagram has no descriptors any more, or it is as it was received, with the
files that its descriptors came with. -/
def AsReceived (k : Kernel) (d : Datagram) (receipt : Datagram × Kernel) : Prop :=
  d.fds = [] ∨ d = receipt.1 ∧ ∀ fd ∈ d.fds, k.fileAt fd = receipt.2.fileAt fd

theorem asReceived_of_kept {k k' : Kernel} {hand hand' : List Datagram} {received : List (Datagram × Kernel)}
    (h : List.Forall₂ (AsReceived k) hand received) (hlength : hand'.length = hand.length)
    (hhand : ∀ (j : Nat) (d : Datagram), hand'[j]? = some d → d.fds = [] ∨ hand[j]? = some d)
    (hkept : ∀ d ∈ hand, d ∈ hand' → ∀ fd ∈ d.fds, k'.table fd = k.table fd) :
    List.Forall₂ (AsReceived k') hand' received := by
  refine List.forall₂_iff_get.mpr ⟨hlength.trans h.length_eq, fun j hj hj' => ?_⟩
  have hd : hand'[j]? = some (hand'.get ⟨j, hj⟩) := List.getElem?_eq_getElem hj
  rcases hhand j _ hd with hclosed | hsame
  · exact .inl hclosed
  · have hbefore := h.get (hlength ▸ hj) hj'
    obtain ⟨_, hget⟩ := List.getElem?_eq_some_iff.mp hsame
    rw [List.get_eq_getElem, hget] at hbefore
    refine hbefore.imp_right fun ⟨heq, hfiles⟩ => ⟨heq, fun fd hfd => ?_⟩
    rw [← hfiles fd hfd, Kernel.fileAt, hkept _ (List.mem_of_getElem? hsame) (List.mem_of_getElem? hd) fd hfd,
      ← Kernel.fileAt]

/-- The messages sent since the listener was bound, and what of them it has
received. -/
structure Relayed (rt : Runtime) (m : Machine) (l : FakeNotifyListener) (path : Bytes) (index : Nat)
    (earlier messages : List Message) (t : Testbed) : Prop where
  addressed : ∀ i, (t.notifiers i).Addressed
  maxFds : t.listener.maxFds = l.maxFds
  bufsize : t.listener.bufsize = l.bufsize
  inbox : t.kernel.inboxes[index]? = some ⟨path, earlier.length, t.received.length⟩
  sent : t.kernel.sent = earlier ++ messages
  relays : List.Forall₂ (Notice.Relays rt) t.told messages
  delivered : List.Forall₂ (Delivered m l) ((messages.filter (·.peer = path)).take t.received.length) t.received

variable {l : FakeNotifyListener} {path : Bytes} {earlier messages : List Message}

theorem waitingAt_eq (ht : t.Accounted base index) (hr : t.Relayed rt m l path index earlier messages)
    (h0 : 0 ≤ t.listener.sock.fd) :
    t.kernel.waitingAt t.listener.sock.fd = (messages.filter (·.peer = path)).drop t.received.length := by
  obtain ⟨-, -, file, hfile, rfl⟩ := ht.held _ .listener ⟨h0, rfl⟩
  simp only [Kernel.waitingAt, hfile, hr.inbox, Option.elim, Kernel.waiting, hr.sent, List.drop_left]

theorem few_waiting (ht : t.Accounted base index) (hr : t.Relayed rt m l path index earlier messages)
    (h0 : 0 ≤ t.listener.sock.fd) :
    ∀ message ∈ t.kernel.waitingAt t.listener.sock.fd, message.files.length ≤ maxFdsPerMessage := by
  intro message hmessage
  rw [waitingAt_eq ht hr h0] at hmessage
  have hmem := List.mem_of_mem_filter (List.mem_of_mem_drop hmessage)
  obtain ⟨j, hj, hget⟩ := List.getElem_of_mem hmem
  have hnotice : j < t.told.length := hr.relays.length_eq ▸ hj
  have hrelays := hr.relays.get hnotice hj
  rw [List.get_eq_getElem, List.get_eq_getElem, hget] at hrelays
  exact hrelays.few

/-- Messages that notifications have handed over. -/
theorem Relayed.after (hr : t.Relayed rt m l path index earlier messages) {notices : List Notice}
    {new : List Message} (haddressed : ∀ i, (t'.notifiers i).Addressed)
    (hmaxFds : t'.listener.maxFds = t.listener.maxFds) (hbufsize : t'.listener.bufsize = t.listener.bufsize)
    (hinboxes : t'.kernel.inboxes = t.kernel.inboxes) (hreceived : t'.received = t.received)
    (htold : t'.told = t.told ++ notices) (hsent : t'.kernel.sent = t.kernel.sent ++ new)
    (hrelays : List.Forall₂ (Notice.Relays rt) notices new) :
    t'.Relayed rt m l path index earlier (messages ++ new) where
  addressed := haddressed
  maxFds := hmaxFds.trans hr.maxFds
  bufsize := hbufsize.trans hr.bufsize
  inbox := by rw [hinboxes, hreceived, hr.inbox]
  sent := by rw [hsent, hr.sent, List.append_assoc]
  relays := htold ▸ List.rel_append hr.relays hrelays
  delivered := by
    have hlength := hr.delivered.length_eq
    rw [List.length_take] at hlength
    rw [hreceived, List.filter_append, List.take_append_of_le_length (by omega)]
    exact hr.delivered

/-- The accounts of a run. -/
structure Inv (rt : Runtime) (m : Machine) (l : FakeNotifyListener) (path : Bytes) (base : Kernel) (index : Nat)
    (earlier : List Message) (t : Testbed) : Prop where
  accounted : t.Accounted base index
  intact : List.Forall₂ (AsReceived t.kernel) t.hand t.received
  relayed : ∃ messages, t.Relayed rt m l path index earlier messages

theorem Continues.intact (hc : Continues base index t t') (h : List.Forall₂ (AsReceived t.kernel) t.hand t.received)
    (hreceived : t'.received = t.received) (hlength : t'.hand.length = t.hand.length)
    (hhand : ∀ (j : Nat) (d : Datagram), t'.hand[j]? = some d → d.fds = [] ∨ t.hand[j]? = some d) :
    List.Forall₂ (AsReceived t'.kernel) t'.hand t'.received :=
  hreceived ▸ asReceived_of_kept h hlength hhand fun d hd hd' fd hfd => hc.kept fd ⟨d, hd, hfd⟩ ⟨d, hd', hfd⟩

theorem Inv.notifies (h : t.Inv rt m l path base index earlier) (i : Nat) (c : Notification)
    (choices : Nat → Choice) : (t.step rt m (.notifies i c, choices)).Inv rt m l path base index earlier := by
  obtain ⟨messages, hr⟩ := h.relayed
  have hnotified := notified rt (hr.addressed i) c choices
  have hcontinues : Continues base index t (t.step rt m (.notifies i c, choices)) :=
    h.accounted.withNotifier hnotified.sockets hnotified.closes
  refine ⟨hcontinues.accounted, hcontinues.intact h.intact rfl rfl fun _ _ => .inr, ?_⟩
  have haddressed : ∀ j, ((t.step rt m (.notifies i c, choices)).notifiers j).Addressed :=
    Function.forall_update_iff t.notifiers (fun _ n => n.Addressed) |>.mpr
      ⟨hnotified.addressed, fun j _ => hr.addressed j⟩
  by_cases htold : ((c.method rt).run (t.notifiers i) ⟨t.kernel, choices⟩).1.1 = .ok true
  · obtain ⟨message, hsent, hrelays⟩ := hnotified.sent htold
    refine ⟨messages ++ [message], ?_⟩
    exact hr.after haddressed rfl rfl hnotified.inboxes rfl (by rw [step, withNotice, if_pos htold]) hsent
      (.cons hrelays .nil)
  · refine ⟨messages ++ [], ?_⟩
    exact hr.after haddressed rfl rfl hnotified.inboxes rfl (by rw [step, withNotice, if_neg htold])
      ((hnotified.silent htold).trans (List.append_nil _).symm) .nil

theorem Inv.calls (h : t.Inv rt m l path base index earlier) (c : Notification) (choices : Nat → Choice) :
    (t.step rt m (.calls c, choices)).Inv rt m l path base index earlier := by
  obtain ⟨messages, hr⟩ := h.relayed
  have hcalled : Called rt t.kernel c (((c.function rt).run () ⟨t.kernel, choices⟩).1.1 = .ok true)
      ((c.function rt).run () ⟨t.kernel, choices⟩).2.kernel :=
    @outcome_of_ends _ _ _ (fun result _ => Called rt t.kernel c (result = .ok true)) _ ⟨t.kernel, choices⟩
      (ends_function c ())
  have hcontinues : Continues base index t (t.step rt m (.calls c, choices)) :=
    h.accounted.withKernel hcalled.table hcalled.missed
  refine ⟨hcontinues.accounted, hcontinues.intact h.intact rfl rfl fun _ _ => .inr, ?_⟩
  by_cases htold : ((c.function rt).run () ⟨t.kernel, choices⟩).1.1 = .ok true
  · obtain ⟨n, message, hn, hsent, hrelays⟩ := hcalled.sent htold
    refine ⟨messages ++ [message], ?_⟩
    exact hr.after hr.addressed rfl rfl hcalled.inboxes rfl (by rw [step, withCall, if_pos htold, hn]) hsent
      (.cons hrelays .nil)
  · refine ⟨messages ++ [], ?_⟩
    exact hr.after hr.addressed rfl rfl hcalled.inboxes rfl (by rw [step, withCall, if_neg htold])
      ((hcalled.silent htold).trans (List.append_nil _).symm) .nil

/-- Nothing is said and nothing is received. -/
theorem Inv.quiet (h : t.Inv rt m l path base index earlier) (hc : Continues base index t t')
    (hlength : t'.hand.length = t.hand.length)
    (hhand : ∀ (j : Nat) (d : Datagram), t'.hand[j]? = some d → d.fds = [] ∨ t.hand[j]? = some d)
    (haddressed : ∀ i, (t'.notifiers i).sunPath = (t.notifiers i).sunPath ∧
      ((t'.notifiers i).sock = (t.notifiers i).sock ∨ (t'.notifiers i).sock = none))
    (hmaxFds : t'.listener.maxFds = t.listener.maxFds) (hbufsize : t'.listener.bufsize = t.listener.bufsize)
    (hinboxes : t'.kernel.inboxes = t.kernel.inboxes) (hsent : t'.kernel.sent = t.kernel.sent)
    (htold : t'.told = t.told) (hreceived : t'.received = t.received) :
    t'.Inv rt m l path base index earlier := by
  obtain ⟨messages, hr⟩ := h.relayed
  refine ⟨hc.accounted, hc.intact h.intact hreceived hlength hhand, messages ++ [], ?_⟩
  have hsame : ∀ i, (t'.notifiers i).Addressed := by
    intro i
    obtain ⟨hpath, hsock⟩ := haddressed i
    rcases hr.addressed i with hnone | ⟨path, hreaches⟩
    · exact .inl (hpath.trans hnone)
    · refine .inr ⟨path, hpath.trans hreaches.sunPath, fun sock hsome => ?_⟩
      rcases hsock with hsock | hsock
      · exact hreaches.sock sock (hsock.symm.trans hsome)
      · rw [hsock] at hsome
        cases hsome
  exact hr.after hsame hmaxFds hbufsize hinboxes hreceived (htold.trans (List.append_nil _).symm)
    (hsent.trans (List.append_nil _).symm) .nil

theorem Inv.closesNotifier (h : t.Inv rt m l path base index earlier) (i : Nat) (choices : Nat → Choice) :
    (t.step rt m (.closesNotifier i, choices)).Inv rt m l path base index earlier := by
  have hends : Py.Ends (Notifier.close rt)
      (fun _ n k => Inv rt m l path base index earlier { t.setNotifier i n with kernel := k })
      (fun _ n k => Inv rt m l path base index earlier { t.setNotifier i n with kernel := k })
      (t.notifiers i) t.kernel := by
    apply Notifier.ends_close
    · intro hnone
      have hsame : { t.setNotifier i (t.notifiers i) with kernel := t.kernel } = t := by
        rw [setNotifier, Function.update_eq_self]
      rw [hsame]
      exact h
    · intro sock hsock
      obtain ⟨hnonneg, -, file, hfile, -⟩ := h.accounted.held sock.fd (.notifier i) ⟨sock, hsock, rfl⟩
      refine ⟨hnonneg, file, hfile, ?_⟩
      refine h.quiet (h.accounted.withoutSocket hsock) rfl (fun _ _ => .inr) (fun j => ?_) rfl rfl rfl rfl rfl rfl
      by_cases hji : j = i
      · subst hji
        simp [setNotifier]
      · simp [setNotifier, hji]
  exact @outcome_of_ends _ _ _
    (fun _ n k => Inv rt m l path base index earlier { t.setNotifier i n with kernel := k }) _
    ⟨t.kernel, choices⟩ hends

/-- The first message that waits has been received. -/
theorem Inv.took (h : t.Inv rt m l path base index earlier) (h0 : 0 ≤ t.listener.sock.fd) {message : Message}
    {rest : List Message} (hwaiting : t.kernel.waitingAt t.listener.sock.fd = message :: rest) {d : Datagram}
    {k : Kernel}
    (hreceived : (d, k) = (⟨message.data.take t.listener.bufsize.toNat,
      (t.kernel.handOut t.listener.sock.fd (capacity m t.listener.maxFds) message).1⟩,
      (t.kernel.handOut t.listener.sock.fd (capacity m t.listener.maxFds) message).2)) :
    Inv rt m l path base index earlier
      { t with kernel := k, hand := t.hand ++ [d], received := t.received ++ [(d, k)] } := by
  obtain ⟨messages, hr⟩ := h.relayed
  obtain ⟨-, -, file, hfile, rfl⟩ := h.accounted.held _ .listener ⟨h0, rfl⟩
  obtain ⟨table, htable⟩ := t.kernel.handOut_eq t.listener.sock.fd (capacity m t.listener.maxFds) message
  have hdelivered : Delivered m l message (d, k) := by
    rw [hreceived]
    have hdelivered := delivered_handOut m t.listener t.kernel message
    exact ⟨hr.bufsize ▸ hdelivered.data, hdelivered.files, hr.maxFds ▸ hdelivered.room⟩
  obtain ⟨inboxes, hdequeue⟩ := t.kernel.dequeue_eq t.listener.sock.fd
  have hsame : (t.kernel.dequeue t.listener.sock.fd).table = t.kernel.table := by rw [hdequeue]
  obtain ⟨hnodup, hfresh, hrest, -⟩ := (t.kernel.dequeue t.listener.sock.fd).receiveFiles_spec
    (message.files.take (capacity m t.listener.maxFds))
  rw [hsame] at hfresh hrest
  have hopen : ∀ fd ∈ d.fds, (k.fileAt fd).isSome := by
    intro fd hfd
    have hfiles := hdelivered.files
    obtain ⟨j, hj, hget⟩ := List.getElem_of_mem hfd
    have hfileAt := hfiles.get hj (hfiles.length_eq ▸ hj)
    rw [List.get_eq_getElem, hget] at hfileAt
    exact Option.isSome_iff_exists.mpr ⟨_, hfileAt⟩
  have hcontinues : Continues base index t
      { t with kernel := k, hand := t.hand ++ [d], received := t.received ++ [(d, k)] } := by
    cases hreceived
    exact h.accounted.withDatagram hnodup hfresh hopen hrest (by rw [htable])
  refine ⟨hcontinues.accounted, List.rel_append ?_ (.cons (.inr ⟨rfl, fun _ _ => rfl⟩) .nil), messages, ?_⟩
  · exact asReceived_of_kept h.intact rfl (fun _ _ => .inr) fun d' hd' _ fd hfd =>
      hcontinues.kept fd ⟨d', hd', hfd⟩ ⟨d', List.mem_append_left _ hd', hfd⟩
  · cases hreceived
    have hdrop := (waitingAt_eq h.accounted hr h0).symm.trans hwaiting
    have hlength := hr.delivered.length_eq
    rw [List.length_take] at hlength
    refine ⟨hr.addressed, hr.maxFds, hr.bufsize, ?_, ?_, hr.relays, ?_⟩
    · rw [List.length_append]
      exact Kernel.handOut_inboxes hfile hr.inbox _ _
    · simp only [htable]
      exact hr.sent
    · rw [List.length_append, List.length_singleton, List.take_add, hdrop]
      exact List.rel_append hr.delivered (.cons hdelivered .nil)

theorem Inv.receives (h : t.Inv rt m l path base index earlier) (hsize : l.bufsize ≠ 0 ∨ l.maxFds ≠ 0)
    (timeoutMs : Int) (choices : Nat → Choice) :
    (t.step rt m (.receives timeoutMs, choices)).Inv rt m l path base index earlier := by
  obtain ⟨messages, hr⟩ := h.relayed
  rw [← hr.bufsize, ← hr.maxFds] at hsize
  have hends : Py.Ends (FakeNotifyListener.receive rt m timeoutMs)
      (fun result listener k => (t.withReceipt (.ok result) listener k).Inv rt m l path base index earlier)
      (fun e listener k => (t.withReceipt (.error e) listener k).Inv rt m l path base index earlier)
      t.listener t.kernel := by
    apply FakeNotifyListener.ends_receive hsize (few_waiting h.accounted hr)
    · intro _
      rw [withReceipt_none]
      exact h
    · intro h0 message rest hwaiting
      exact h.took h0 hwaiting rfl
    · intro e
      rw [withReceipt_error]
      exact h
  exact @outcome_of_ends _ _ _
    (fun result listener k => (t.withReceipt result listener k).Inv rt m l path base index earlier) _
    ⟨t.kernel, choices⟩ hends

theorem Inv.closesFds (h : t.Inv rt m l path base index earlier) (j : Nat) (choices : Nat → Choice) :
    (t.step rt m (.closesFds j, choices)).Inv rt m l path base index earlier := by
  rw [step]
  cases hd : t.hand[j]? with
  | none => exact h
  | some d =>
    have hmem := List.mem_of_getElem? hd
    have hnodup := (List.nodup_flatMap.mp h.accounted.nodup).1 d hmem
    have hopen : ∀ fd ∈ d.fds, t.kernel.table fd ≠ none := fun fd hfd =>
      h.accounted.not_fresh (show t.Holds fd .datagram from ⟨d, hmem, hfd⟩)
    have hends : Py.Ends Datagram.closeFds
        (fun _ d k => Inv rt m l path base index earlier { t with kernel := k, hand := t.hand.set j d })
        (fun _ d k => Inv rt m l path base index earlier { t with kernel := k, hand := t.hand.set j d })
        d t.kernel := by
      apply Datagram.ends_closeFds hnodup hopen
      intro k hclosed
      obtain ⟨table, closes, rfl⟩ := hclosed.frame
      refine h.quiet (h.accounted.withoutFds hd hclosed) List.length_set (fun i d' hd' => ?_)
        (fun _ => ⟨rfl, .inl rfl⟩) rfl rfl rfl rfl rfl rfl
      have hset : (t.hand.set j { d with fds := [] })[i]? = some d' := hd'
      by_cases hij : j = i
      · obtain ⟨hlength, -⟩ := List.getElem?_eq_some_iff.mp hd
        rw [hij, List.getElem?_set_self (hij ▸ hlength)] at hset
        cases hset
        exact .inl rfl
      · exact .inr ((List.getElem?_set_ne hij).symm.trans hset)
    exact @outcome_of_ends _ _ _
      (fun _ d k => Inv rt m l path base index earlier { t with kernel := k, hand := t.hand.set j d }) _
      ⟨t.kernel, choices⟩ hends

theorem Inv.closesListener (h : t.Inv rt m l path base index earlier) (choices : Nat → Choice) :
    (t.step rt m (.closesListener, choices)).Inv rt m l path base index earlier := by
  have hends : Py.Ends (FakeNotifyListener.close rt)
      (fun _ listener k => Inv rt m l path base index earlier { t with kernel := k, listener := listener })
      (fun _ listener k => Inv rt m l path base index earlier { t with kernel := k, listener := listener })
      t.listener t.kernel := by
    by_cases h0 : 0 ≤ t.listener.sock.fd
    · obtain ⟨-, -, file, hfile, -⟩ := h.accounted.held _ .listener ⟨h0, rfl⟩
      apply FakeNotifyListener.ends_closeListener h0 hfile
      exact h.quiet (h.accounted.withoutListener h0) rfl (fun _ _ => .inr) (fun _ => ⟨rfl, .inl rfl⟩) rfl rfl rfl
        rfl rfl rfl
    · apply FakeNotifyListener.ends_closeListener_closed (not_le.mp h0)
      exact h
  exact @outcome_of_ends _ _ _
    (fun _ listener k => Inv rt m l path base index earlier { t with kernel := k, listener := listener }) _
    ⟨t.kernel, choices⟩ hends

theorem Inv.step (h : t.Inv rt m l path base index earlier) (hsize : l.bufsize ≠ 0 ∨ l.maxFds ≠ 0) :
    ∀ event : TestEvent × (Nat → Choice), (t.step rt m event).Inv rt m l path base index earlier
  | (.notifies i c, choices) => h.notifies i c choices
  | (.calls c, choices) => h.calls c choices
  | (.setsEnvironment _, _) => h.quiet (h.accounted.withKernel rfl rfl) rfl (fun _ _ => .inr)
      (fun _ => ⟨rfl, .inl rfl⟩) rfl rfl rfl rfl rfl rfl
  | (.closesNotifier i, choices) => h.closesNotifier i choices
  | (.receives timeoutMs, choices) => h.receives hsize timeoutMs choices
  | (.closesFds j, choices) => h.closesFds j choices
  | (.closesListener, choices) => h.closesListener choices

theorem inv_start {k : Kernel} {notifiers : Nat → Notifier} (hopened : l.Opened path base k)
    (hnotifiers : ∀ i, ∃ address, Notifier.ofAddress address = .ok (notifiers i)) :
    (start k l notifiers).Inv rt m l path base base.inboxes.length base.sent := by
  have hunopened : ∀ i, (notifiers i).sock = none ∧ (notifiers i).Addressed := by
    intro i
    obtain ⟨address, haddress⟩ := hnotifiers i
    have haddressed : (notifiers i).Addressed := by
      cases hpath : (notifiers i).sunPath with
      | none => exact .inl hpath
      | some path => exact .inr ⟨path, Notifier.reaches_ofAddress haddress hpath⟩
    exact ⟨Notifier.sock_ofAddress haddress, haddressed⟩
  have hholds : ∀ fd h, (start k l notifiers).Holds fd h → h = .listener ∧ l.sock.fd = fd := by
    intro fd h hh
    cases h with
    | listener => exact ⟨rfl, hh.2⟩
    | notifier i =>
      obtain ⟨sock, hsock, -⟩ := hh
      rw [show (start k l notifiers).notifiers i = notifiers i from rfl, (hunopened i).1] at hsock
      cases hsock
    | datagram =>
      obtain ⟨d, hd, -⟩ := hh
      cases hd
  refine ⟨⟨?_, ?_, ?_, List.nodup_nil, ?_⟩, .nil, [], ?_⟩
  · intro fd h hh
    obtain ⟨rfl, rfl⟩ := hholds fd h hh
    refine ⟨hopened.nonneg, hopened.free, .boundSocket base.inboxes.length, ?_, rfl⟩
    show k.fileAt l.sock.fd = _
    rw [Kernel.fileAt, hopened.table, Function.update_self]
    rfl
  · intro fd h h' hh hh'
    rw [(hholds fd h hh).1, (hholds fd h' hh').1]
  · intro fd hnone
    have hne : fd ≠ l.sock.fd := fun heq => hnone .listener ⟨heq ▸ hopened.nonneg, heq.symm⟩
    show k.table fd = _
    rw [hopened.table, Function.update_of_ne hne]
  · show k.closes.count none = _
    rw [hopened.closes]
  · refine ⟨fun i => (hunopened i).2, rfl, rfl, ?_, ?_, .nil, .nil⟩
    · show k.inboxes[base.inboxes.length]? = _
      rw [hopened.inboxes, List.getElem?_concat_length]
      rfl
    · exact hopened.sent.trans (List.append_nil _).symm

theorem inv_new {urandom : Bytes} {address : Option StrOrBytes} {maxFds bufsize : Int} {w w' : World}
    (hnew : (FakeNotifyListener.new urandom address maxFds bufsize).run () w = ((.ok l, ()), w'))
    {notifiers : Nat → Notifier} (hnotifiers : ∀ i, ∃ address, Notifier.ofAddress address = .ok (notifiers i)) :
    l.maxFds = maxFds ∧ l.bufsize = bufsize ∧ ∃ path, encodeUnixAddress l.address = .ok path ∧
      (start w'.kernel l notifiers).Inv rt m l path w.kernel w.kernel.inboxes.length w.kernel.sent := by
  have hopened := (@FakeNotifyListener.ends_new Unit w.kernel urandom address maxFds bufsize ()).run
  rw [hnew] at hopened
  obtain ⟨hmaxFds, hbufsize, path, hopened⟩ := hopened
  exact ⟨hmaxFds, hbufsize, path, hopened.address, inv_start hopened hnotifiers⟩

theorem inv_run {urandom : Bytes} {address : Option StrOrBytes} {maxFds bufsize : Int} {w w' : World}
    (hnew : (FakeNotifyListener.new urandom address maxFds bufsize).run () w = ((.ok l, ()), w'))
    (hsize : bufsize ≠ 0 ∨ maxFds ≠ 0) {notifiers : Nat → Notifier}
    (hnotifiers : ∀ i, ∃ address, Notifier.ofAddress address = .ok (notifiers i))
    (events : List (TestEvent × (Nat → Choice))) :
    ∃ path, encodeUnixAddress l.address = .ok path ∧
      (events.foldl (step rt m) (start w'.kernel l notifiers)).Inv rt m l path w.kernel
        w.kernel.inboxes.length w.kernel.sent := by
  obtain ⟨hmaxFds, hbufsize, path, hpath, hstart⟩ := inv_new hnew hnotifiers
  refine ⟨path, hpath, ?_⟩
  have hsizes : l.bufsize ≠ 0 ∨ l.maxFds ≠ 0 := by rwa [hbufsize, hmaxFds]
  exact Runs.invariant (fun t : Testbed => t.Inv rt m l path w.kernel w.kernel.inboxes.length w.kernel.sent)
    hstart (fun _ event h => h.step hsizes event) events

end Testbed

/-- A listener with room for bytes or descriptors receives what notifications have
told its address, in the order they were made and each once, cut only where there
is no room; what it has not received still waits. -/
theorem received_in_order (rt : Runtime) (m : Machine) {urandom : Bytes} {address : Option StrOrBytes}
    {maxFds bufsize : Int} {w w' : World} {l : FakeNotifyListener}
    (hnew : (FakeNotifyListener.new urandom address maxFds bufsize).run () w = ((.ok l, ()), w'))
    (hsize : bufsize ≠ 0 ∨ maxFds ≠ 0) {notifiers : Nat → Notifier}
    (hnotifiers : ∀ i, ∃ address, Notifier.ofAddress address = .ok (notifiers i))
    (events : List (TestEvent × (Nat → Choice))) :
    let t := events.foldl (Testbed.step rt m) (.start w'.kernel l notifiers)
    ∃ path messages taken waiting, encodeUnixAddress l.address = .ok path ∧
      List.Forall₂ (Notice.Relays rt) t.told messages ∧ messages.filter (·.peer = path) = taken ++ waiting ∧
      List.Forall₂ (FakeNotifyListener.Delivered m l) taken t.received ∧
      (0 ≤ t.listener.sock.fd → t.kernel.waitingAt t.listener.sock.fd = waiting) := by
  intro t
  obtain ⟨path, hpath, haccounted, -, messages, hr⟩ :=
    @Testbed.inv_run rt m l _ _ _ _ _ _ hnew hsize _ hnotifiers events
  exact ⟨path, messages, _, _, hpath, hr.relays, (List.take_append_drop t.received.length _).symm, hr.delivered,
    Testbed.waitingAt_eq haccounted hr⟩

namespace Testbed

open FakeNotifyListener (Delivered defaultListener listening nineOpen notifyAddress cpython wide)

/-- The next descriptor to be opened is `fd`. -/
def opening (fd : Nat) : Nat → Choice := fun _ => ⟨none, fd, 0, 0, 0⟩

def storingTwo : List (TestEvent × (Nat → Choice)) :=
  [(.notifies 0 (.ready none), opening 30),
    (.notifies 1 (.fdstore (.many [3, 4]) (some (str "conn")) none), opening 31),
    (.receives 1000, opening 0), (.receives 1000, opening 0), (.closesNotifier 1, opening 0),
    (.closesFds 1, opening 0)]

def atAddress : Notifier := ⟨some notifyAddress, some (0 :: bytes "notify"), none⟩

theorem atAddress_eq : Notifier.ofAddress (some notifyAddress) = .ok atAddress := rfl

def afterStoring : Testbed :=
  storingTwo.foldl (step cpython wide) (start listening.2.kernel defaultListener fun _ => atAddress)

theorem received_in_order_stored :
    (∃ messages taken, List.Forall₂ (Notice.Relays cpython) afterStoring.told messages ∧
      taken <+: messages.filter (·.peer = 0 :: bytes "notify") ∧
      List.Forall₂ (Delivered wide defaultListener) taken afterStoring.received) ∧
      afterStoring.received.map (fun receipt => receipt.1) =
        [⟨bytes "READY=1\n", []⟩, ⟨bytes "FDNAME=conn\nFDSTORE=1\n", [0, 1]⟩] := by
  refine ⟨?_, rfl⟩
  have hnew : (FakeNotifyListener.new [] (some notifyAddress) 8 65536).run () nineOpen =
      ((.ok defaultListener, ()), listening.2) := rfl
  obtain ⟨path, messages, taken, waiting, hpath, hrelays, hqueue, hdelivered, -⟩ :=
    received_in_order cpython wide hnew (.inl (by decide)) (fun _ => ⟨_, atAddress_eq⟩) storingTwo
  cases hpath
  exact ⟨messages, taken, hrelays, ⟨waiting, hqueue.symm⟩, hdelivered⟩

end Testbed

/-- Every descriptor the process did not have before the listener, one with room for
bytes or descriptors, has one holder: the listener, a notifier or a datagram in hand;
all others are as they were, and no close misses. The datagrams in hand keep the files they came with until their
descriptors are closed. -/
theorem descriptors_have_holders (rt : Runtime) (m : Machine) {urandom : Bytes} {address : Option StrOrBytes}
    {maxFds bufsize : Int} {w w' : World} {l : FakeNotifyListener}
    (hnew : (FakeNotifyListener.new urandom address maxFds bufsize).run () w = ((.ok l, ()), w'))
    (hsize : bufsize ≠ 0 ∨ maxFds ≠ 0) {notifiers : Nat → Notifier}
    (hnotifiers : ∀ i, ∃ address, Notifier.ofAddress address = .ok (notifiers i))
    (events : List (TestEvent × (Nat → Choice))) :
    let t := events.foldl (Testbed.step rt m) (.start w'.kernel l notifiers)
    t.Accounted w.kernel w.kernel.inboxes.length ∧
      List.Forall₂ (Testbed.AsReceived t.kernel) t.hand t.received := by
  obtain ⟨_, -, hinv⟩ := @Testbed.inv_run rt m l _ _ _ _ _ _ hnew hsize _ hnotifiers events
  exact ⟨hinv.accounted, hinv.intact⟩

namespace Testbed

open FakeNotifyListener (defaultListener listening nineOpen notifyAddress cpython wide)

/-- The closed descriptors are free again, and the first notifier's socket is open. -/
theorem descriptors_have_holders_stored :
    afterStoring.Accounted nineOpen.kernel 0 ∧
      [0, 1, 30, 31].map (fun fd => (afterStoring.kernel.fileAt fd).isSome) = [false, false, true, false] := by
  have hnew : (FakeNotifyListener.new [] (some notifyAddress) 8 65536).run () nineOpen =
      ((.ok defaultListener, ()), listening.2) := rfl
  exact ⟨(descriptors_have_holders cpython wide hnew (.inl (by decide)) (fun _ => ⟨_, atAddress_eq⟩) storingTwo).1,
    by decide +kernel⟩

end Testbed

end Mpsystemd
