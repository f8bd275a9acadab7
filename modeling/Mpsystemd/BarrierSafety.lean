import Mpsystemd.BarrierPipes

/-! Barriers in every interleaving: a barrier that is reported done has been
processed, and one the manager is finished with is reported done. -/

namespace Mpsystemd.Barrier

open Notifier Holding

def noFrame : Fd → Option File := fun _ => none

def Returns : Call → Result → Notifier → Holding → Prop
  | .barrierFinish readFd _, .bool done, n, h => Settled noFrame n h ∧
    (done = true → ∀ pipe, h.sees readFd = some (.pipeRead pipe) → h.drained pipe) ∧
    ∀ events, h.events = some events → events ≠ 0 → done = true
  | .barrier _, .bool done, n, h => Settled noFrame n h ∧
    (done = true → ∃ pipe index, h.mark = some index ∧ h.posted pipe = some index ∧ h.drained pipe) ∧
    ∀ events, h.events = some events → events ≠ 0 → done = true
  | .barrierBegin, .readFd (some readFd), n, h => ∃ pipe,
    Settled (Function.update noFrame readFd (some (.pipeRead pipe))) n h ∧
      ∃ index, h.mark = some index ∧ h.posted pipe = some index
  | .barrierBegin, .readFd none, n, h => Settled noFrame n h
  | _, .readFd _, _, _ => False
  | _, _, n, h => Settled noFrame n h

def Raises (_ : PyErr) (n : Notifier) (h : Holding) : Prop := Settled noFrame n h

theorem obeys_method {rt : Runtime} {n : Notifier} {h : Holding} (c : Call) (hs : Settled noFrame n h)
    (hlends : ¬ Lends c) (hevents : h.events = none)
    (htarget : ∀ readFd timeoutMs, c = .barrierFinish readFd timeoutMs →
      ∃ pipe, h.sees readFd = some (.pipeRead pipe) ∧ h.own readFd = none) :
    (c.method rt).Obeys (contract False) (Returns c) Raises n h := by
  cases c with
  | sendRaw payload fds =>
    have hnil : fds = [] := not_not.mp hlends
    exact Method.obeys_map.mpr (settles_sendRaw (.inl hnil) _ n h hs)
  | notify states fields => exact Method.obeys_map.mpr (settles_notify _ n h hs)
  | fdstore fds name poll => exact absurd trivial hlends
  | fdstoreRemove name => exact Method.obeys_map.mpr (settles_fdstoreRemove _ n h hs)
  | barrierBegin =>
    refine Method.obeys_map.mpr ((obeys_barrierBegin hs).mono ?_ fun _ _ _ herr => herr)
    intro result n' h' hok
    cases result with
    | none =>
      obtain ⟨rfl, rfl⟩ := hok
      exact hs
    | some readFd =>
      obtain ⟨_, pipe, hs', hposted⟩ := hok
      exact ⟨pipe, hs', hposted⟩
  | barrierFinish readFd timeoutMs =>
    obtain ⟨pipe, hsees, hown⟩ := htarget readFd timeoutMs rfl
    have hpoll : h.MayPoll False readFd := by
      refine ⟨.inr ⟨pipe, .inr hsees⟩, fun pipe' hpipe' => ?_⟩
      rw [hown] at hpipe'
      cases hpipe'
    refine Method.obeys_map.mpr ((obeys_barrierFinish hpoll).mono ?_ ?_)
    · rintro _ n' h' ⟨rfl, events, rfl, rfl⟩
      refine ⟨hs.of_own rfl, fun hdone pipe' hpipe' => ?_, fun events' he hne => ?_⟩
      · exact .inr ⟨of_decide_eq_true hdone, .inr hpipe'⟩
      · cases he
        exact decide_eq_true hne
    · rintro _ n' h' ⟨rfl, rfl⟩
      exact hs
  | barrier timeoutMs =>
    have hF : ∀ fd pipe, noFrame fd ≠ some (.pipeWrite pipe) := nofun
    exact Method.obeys_map.mpr (obeys_barrier hs hF hevents)
  | close =>
    refine Method.obeys_map.mpr ((obeys_close hs).mono ?_ fun _ _ _ => False.elim)
    rintro _ n' h' ⟨hsock, hown⟩
    simp [Returns, Settled, hsock, hown]

structure Fits (held : List (Fd × Option Nat)) (t : Thread) (h : Holding) : Prop where
  mark : h.mark = t.mark
  late : t.late = true → ∃ events, h.events = some events ∧ events ≠ 0
  target : ∀ fd barrier, t.target = some (fd, barrier) → (fd, barrier) ∈ held
  sees : ∀ fd file, h.sees fd = some file → ∃ barrier, t.target = some (fd, barrier)
  idle : t.running = none → Settled noFrame t.notifier h
  running : ∀ c p, t.running = some (c, p) → p.Obeys (contract False) (Method.outcome (Returns c) Raises) h
  finish : ∀ readFd timeoutMs p, t.running = some (.barrierFinish readFd timeoutMs, p) →
    ∃ barrier pipe, t.target = some (readFd, barrier) ∧ h.sees readFd = some (.pipeRead pipe)
  other : ∀ timeoutMs p, t.running = some (.barrier timeoutMs, p) → t.target = none

def Sound (m : Manager) (r : Report) : Prop :=
  (r.done = true → ∃ index, r.barrier = some index ∧ index < m.processed) ∧
    (r.late = true → r.done = true)

structure Inv {ι : Type} (s : System ι) (hs : ι → Holding) : Prop where
  coherent : Coherent s.kernel s.manager s.held hs
  queue : InQueue s.kernel s.manager
  fits : ∀ i, Fits s.held (s.threads i) (hs i)
  reports : ∀ r ∈ s.reports, Sound s.manager r

variable {ι : Type} [DecidableEq ι] {rt : Runtime} {s s' : System ι} {hs : ι → Holding}

omit [DecidableEq ι] in
theorem Inv.initial (h0 : Initial s) : Inv s fun _ => .idle noFrame := by
  have hcarries : ∀ index file, ¬ Carries s.kernel index file := by
    rintro index file ⟨message, hm, _⟩
    simp [h0.sent] at hm
  have hknows : ∀ pipe, ¬ Knows (.idle noFrame) pipe := by
    rintro pipe (⟨fd, hfd⟩ | ⟨fd, hfd⟩ | ⟨index, hp⟩)
    · cases hfd
    · cases hfd
    · cases hp
  have hheld : ∀ fd barrier, (fd, barrier) ∉ s.held := by simp [h0.held]
  constructor
  · constructor
    · intro i
      exact ⟨nofun, fun pipe hk => absurd hk (hknows pipe), nofun, nofun, fun _ hd => hd.elim, nofun,
        fun _ _ _ => rfl, fun fd barrier _ hb => absurd hb (hheld fd barrier)⟩
    · exact fun _ _ _ => ⟨fun _ => .inl rfl, fun pipe hk => absurd hk (hknows pipe)⟩
    · refine ⟨fun fd barrier hb => absurd hb (hheld fd barrier), ?_, ?_, by simp [h0.held]⟩
      · exact fun index pipe hcar => absurd hcar (hcarries index _)
      · exact fun i _ pipe hi => absurd hi (hcarries i _)
    · exact fun fd pipe hfd => absurd hfd (h0.pipes fd pipe)
  · exact ⟨by simp [h0.manager], .inl (by simp [h0.manager]), by simp [h0.manager]⟩
  · intro i
    obtain ⟨n, hn, ht⟩ := h0.threads i
    rw [ht]
    refine ⟨rfl, nofun, nofun, nofun, fun _ => ?_, nofun, nofun, nofun⟩
    simp [Settled, hn, Holding.idle]
  · simp [h0.reports]

theorem fits_update {held held' : List (Fd × Option Nat)} {i : ι} {t : Thread} {h : Holding}
    (hfits : ∀ j, Fits held (s.threads j) (hs j)) (hi : Fits held' t h)
    (hheld : ∀ j, j ≠ i → ∀ fd barrier, (s.threads j).target = some (fd, barrier) →
      (fd, barrier) ∈ held') (j : ι) :
    Fits held' (Function.update s.threads i t j) (Function.update hs i h j) := by
  by_cases hj : j = i
  · subst hj
    simpa using hi
  · rw [Function.update_of_ne hj, Function.update_of_ne hj]
    exact { hfits j with target := hheld j hj }

theorem Settled.no_writes {n : Notifier} {h : Holding} (hs : Settled noFrame n h) (fd : Fd)
    (pipe : Nat) : h.own fd ≠ some (.pipeWrite pipe) := by
  intro hfd
  rcases hs.of_own_eq hfd with hsocket | hF
  · cases hsocket
  · cases hF

def seen (k : Kernel) (target : Option (Fd × Option Nat)) (fd : Fd) : Option File :=
  if target.map Prod.fst = some fd then k.fileAt fd else none

theorem exists_target {target : Option (Fd × Option Nat)} {fd : Fd} :
    target.map Prod.fst = some fd ↔ ∃ barrier, target = some (fd, barrier) := by
  cases target with
  | none => simp
  | some pair =>
    obtain ⟨fd', barrier⟩ := pair
    simp [eq_comm]

theorem Inv.start (hinv : Inv s hs) {i : ι} {c : Call} {target : Option (Fd × Option Nat)}
    (hidle : (s.threads i).running = none) (hlends : ¬ Lends c) (htarget : Targets s.held c target) :
    ∃ hs', Inv (s.setThread i
      ⟨(s.threads i).notifier, some (c, c.method rt (s.threads i).notifier), target, none, false⟩) hs' := by
  have hset := (hinv.fits i).idle hidle
  let h : Holding := { Holding.idle (hs i).own with sees := seen s.kernel target }
  have hseen : ∀ fd file, h.sees fd = some file →
      s.kernel.fileAt fd = some file ∧ ∃ barrier, target = some (fd, barrier) := by
    intro fd file hfd
    by_cases htarget : target.map Prod.fst = some fd
    · exact ⟨by simpa [h, seen, htarget] using hfd, exists_target.mp htarget⟩
    · simp [h, seen, htarget] at hfd
  have htargets : ∀ fd barrier, target = some (fd, barrier) → (fd, barrier) ∈ s.held ∧
      ∃ pipe, h.sees fd = some (.pipeRead pipe) := by
    intro fd barrier heq
    have hmem : (fd, barrier) ∈ s.held := by
      cases c with
      | barrierFinish readFd timeoutMs =>
        obtain ⟨b, hb, ht⟩ := htarget
        rw [ht] at heq
        cases heq
        exact hb
      | _ => exact absurd (heq.symm.trans htarget) nofun
    obtain ⟨index, pipe, _, hfile, _⟩ := hinv.coherent.shared.waits fd barrier hmem
    exact ⟨hmem, pipe, by simp [h, seen, heq, hfile]⟩
  have hf : Forgets (hs i) h := ⟨fun _ _ hfd => hfd, nofun⟩
  have hcoherent : Coherent s.kernel s.manager s.held (Function.update hs i h) := by
    apply hinv.coherent.forget i hf
    · apply (hinv.coherent.each i).forget hf
      · exact fun fd pipe hfd _ => absurd hfd (Settled.no_writes hset fd pipe)
      · exact fun _ hd => hd.elim
      · intro fd file hfd
        obtain ⟨hfile, barrier, heq⟩ := hseen fd file hfd
        exact ⟨hfile, barrier, (htargets fd barrier heq).1⟩
    · exact fun _ _ hfd => hfd
  refine ⟨Function.update hs i h, hcoherent, hinv.queue, ?_, hinv.reports⟩
  apply fits_update hinv.fits
  · refine ⟨rfl, nofun, fun fd barrier heq => (htargets fd barrier heq).1,
      fun fd file hfd => (hseen fd file hfd).2, nofun, ?_, ?_, ?_⟩
    · intro c' p heq
      cases heq
      have hset' : Settled noFrame (s.threads i).notifier h := hset.of_own rfl
      apply obeys_method c hset' hlends rfl
      rintro readFd timeoutMs rfl
      obtain ⟨barrier, hb, ht⟩ := htarget
      obtain ⟨_, pipe, hpipe⟩ := htargets readFd barrier ht
      exact ⟨pipe, hpipe, (hinv.coherent.each i).spare readFd barrier hb⟩
    · intro readFd timeoutMs p heq
      cases heq
      obtain ⟨barrier, _, ht⟩ := htarget
      obtain ⟨_, pipe, hpipe⟩ := htargets readFd barrier ht
      exact ⟨barrier, pipe, ht, hpipe⟩
    · intro timeoutMs p heq
      cases heq
      exact htarget
  · exact fun j _ => (hinv.fits j).target

/-- A thread that polls after the manager was finished sees an event. -/
theorem Inv.late_poll (hinv : Inv s hs) {i : ι} {fd : Fd} {mask : Nat} {timeoutMs : Int}
    {events : Nat} (hop : (hs i).MayPoll False fd)
    (hpoll : PollRule s.kernel s.manager (.poll fd mask timeoutMs) (.ok events))
    (hlate : ((s.threads i).polled fd).any (fun index => decide (s.manager.Finished index)) = true) :
    events ≠ 0 := by
  have hfits := hinv.fits i
  have hlocal := hinv.coherent.each i
  obtain ⟨index, hindex, hfinished⟩ : ∃ index, (s.threads i).polled fd = some index ∧
      s.manager.Finished index := by
    cases hp : (s.threads i).polled fd with
    | none => simp [hp] at hlate
    | some index => exact ⟨index, rfl, by simpa [hp] using hlate⟩
  obtain ⟨hfalse | ⟨pipe, hown | hsees⟩, hpipes⟩ := hop
  · exact hfalse.elim
  · -- A pipe of the call's own: its barrier is the datagram the call sent last.
    obtain ⟨hposted, hnowrite⟩ := hpipes pipe hown
    have hmark : (s.threads i).polled fd = (s.threads i).mark := by
      rw [Thread.polled]
      split
      · next readFd barrier ht =>
        have hne : readFd ≠ fd := by
          rintro rfl
          have hspare := hlocal.spare readFd barrier (hfits.target readFd barrier ht)
          rw [hown] at hspare
          cases hspare
        rw [if_neg hne]
      · rfl
    have hbrings : Brings s.kernel index pipe := by
      apply hlocal.posted
      rw [hposted, hfits.mark, ← hmark, hindex]
    refine (hpoll pipe (hlocal.own _ _ hown)).mpr ?_
    apply hinv.queue.closed_of_finished hinv.coherent.shared hbrings hfinished
    intro fd' hfd'
    obtain ⟨j, hj⟩ := hinv.coherent.writes fd' pipe hfd'
    by_cases heq : j = i
    · exact hnowrite fd' (heq ▸ hj)
    · exact (hinv.coherent.apart j i heq).pipes pipe (.inr (.inl ⟨fd', hj⟩)) (.inl ⟨fd, hown⟩)
  · -- A read end its caller holds.
    obtain ⟨hfile, barrier', hheld⟩ := hlocal.sees _ _ hsees
    obtain ⟨barrier, ht⟩ := hfits.sees _ _ hsees
    have hsame := hinv.coherent.shared.barrier_unique hheld (hfits.target fd barrier ht)
    obtain ⟨index', pipe', hbarrier, hfile', hbrings⟩ := hinv.coherent.shared.waits fd barrier' hheld
    rw [hfile, Option.some.injEq, File.pipeRead.injEq] at hfile'
    subst hfile'
    have heq : index' = index := by
      simpa [Thread.polled, ht, ← hsame, hbarrier] using hindex
    subst heq
    refine (hpoll pipe hfile).mpr ?_
    apply hinv.queue.closed_of_finished hinv.coherent.shared hbrings hfinished
    intro fd' hfd'
    obtain ⟨j, hj⟩ := hinv.coherent.writes fd' pipe hfd'
    exact (hinv.coherent.each j).strange fd barrier' pipe hheld hfile (.inr (.inl ⟨fd', hj⟩))

theorem Inv.late_call (hinv : Inv s hs) {i : ι} {op : Sys} {reply : op.Reply}
    (hop : (hs i).permits False op) (hpoll : PollRule s.kernel s.manager op reply)
    (hlate : lateAfter s.manager (s.threads i) op reply = true) :
    ∃ events, eventsAfter (hs i) op reply = some events ∧ events ≠ 0 := by
  cases op with
  | poll fd mask timeoutMs =>
    cases reply with
    | ok events => exact ⟨events, rfl, hinv.late_poll hop hpoll hlate⟩
    | error e => exact (hinv.fits i).late hlate
  | _ => exact (hinv.fits i).late hlate

theorem Inv.call (hinv : Inv s hs) {i : ι} {c : Call} {op : Sys}
    {next : op.Reply → Prog Sys Sys.Reply (Except PyErr Result × Notifier)} {choice : Choice}
    (hrun : (s.threads i).running = some (c, .call op next))
    (hpoll : PollRule s.kernel s.manager op (s.kernel.perform choice op).1) :
    ∃ hs', Inv { s.setThread i
      { s.threads i with
        running := some (c, next (s.kernel.perform choice op).1)
        mark := if (s.kernel.perform choice op).2.sent.length = s.kernel.sent.length then
          (s.threads i).mark else some s.kernel.sent.length
        late := lateAfter s.manager (s.threads i) op (s.kernel.perform choice op).1 } with
      kernel := (s.kernel.perform choice op).2 } hs' := by
  have hfits := hinv.fits i
  obtain ⟨hop, hnext⟩ := hfits.running c _ hrun
  obtain ⟨h', hanswers, hcoherent, hfollows⟩ := hinv.coherent.answers i choice hop hpoll
  have hqueue : InQueue (s.kernel.perform choice op).2 s.manager := by
    rcases hfollows.sent with ⟨hsent, _⟩ | ⟨message, hsent, _⟩
    · exact hinv.queue.of_sent hsent
    · exact (hinv.queue.enqueue message).of_sent hsent
  refine ⟨Function.update hs i h', hcoherent, hqueue, ?_, hinv.reports⟩
  apply fits_update hinv.fits
  · constructor
    · rcases hfollows.sent with ⟨hsent, hmark⟩ | ⟨message, hsent, hmark⟩
      · simp [hsent, hmark, hfits.mark]
      · simp [hsent, hmark]
    · intro hlate
      rw [hfollows.events]
      exact hinv.late_call hop hpoll hlate
    · exact hfits.target
    · intro fd file hfd
      rw [hfollows.sees] at hfd
      exact hfits.sees fd file hfd
    · exact nofun
    · intro c' p heq
      cases heq
      exact hnext _ h' hanswers
    · intro readFd timeoutMs p heq
      cases heq
      obtain ⟨barrier, pipe, ht, hsees⟩ := hfits.finish readFd timeoutMs _ hrun
      exact ⟨barrier, pipe, ht, hfollows.sees ▸ hsees⟩
    · intro timeoutMs p heq
      cases heq
      exact hfits.other timeoutMs _ hrun
  · exact fun j _ => (hinv.fits j).target

omit [DecidableEq ι] in
theorem Inv.sound (hinv : Inv s hs) {i : ι} {c : Call} {result : Except PyErr Result}
    {n : Notifier} (hrun : (s.threads i).running = some (c, .ret (result, n))) :
    ∀ r ∈ reported (s.threads i) c result, Sound s.manager r := by
  have hfits := hinv.fits i
  have hlocal := hinv.coherent.each i
  have hpost := hfits.running c _ hrun
  intro r hr
  unfold reported at hr
  split at hr
  · next timeoutMs done =>
    -- `barrier`: the datagram is the one the call sent.
    obtain ⟨_, hdone, hevents⟩ := hpost
    rw [List.mem_singleton] at hr
    subst hr
    refine ⟨fun htrue => ?_, fun hlate => ?_⟩
    · obtain ⟨pipe, index, hmark, hposted, hdrained⟩ := hdone htrue
      refine ⟨index, ?_, ?_⟩
      · simp [Thread.barrier, hfits.other timeoutMs _ hrun, ← hfits.mark, hmark]
      · exact hinv.queue.processed_of_closed (hlocal.posted pipe index hposted)
          (hlocal.drained pipe hdrained).2
    · obtain ⟨events, he, hne⟩ := hfits.late hlate
      exact hevents events he hne
  · next readFd timeoutMs done =>
    -- `barrier_finish`: the datagram is the one the read end came with.
    obtain ⟨_, hdone, hevents⟩ := hpost
    rw [List.mem_singleton] at hr
    subst hr
    refine ⟨fun htrue => ?_, fun hlate => ?_⟩
    · obtain ⟨barrier, pipe, ht, hsees⟩ := hfits.finish readFd timeoutMs _ hrun
      obtain ⟨index, pipe', hbarrier, hfile, hbrings⟩ :=
        hinv.coherent.shared.waits readFd barrier (hfits.target readFd barrier ht)
      rw [(hlocal.sees _ _ hsees).1, Option.some.injEq, File.pipeRead.injEq] at hfile
      subst hfile
      refine ⟨index, by simp [Thread.barrier, ht, hbarrier], ?_⟩
      exact hinv.queue.processed_of_closed hbrings (hlocal.drained _ (hdone htrue pipe hsees)).2
    · obtain ⟨events, he, hne⟩ := hfits.late hlate
      exact hevents events he hne
  · cases hr

theorem Returns.settled {c : Call} {result : Result} {n : Notifier} {h : Holding}
    (hr : Returns c result n h) (hnone : ∀ fd, result ≠ .readFd (some fd)) : Settled noFrame n h := by
  cases result with
  | bool b =>
    cases c with
    | barrierFinish readFd timeoutMs => exact hr.1
    | barrier timeoutMs => exact hr.1
    | _ => exact hr
  | unit =>
    cases c with
    | _ => exact hr
  | readFd fd =>
    cases fd with
    | some fd => exact absurd rfl (hnone fd)
    | none =>
      cases c with
      | barrierBegin => exact hr
      | _ => exact hr.elim

theorem Inv.forget (hinv : Inv s hs) {i : ι} {n : Notifier} (hset : Settled noFrame n (hs i)) :
    Coherent s.kernel s.manager s.held (Function.update hs i (.idle (hs i).own)) := by
  have hf : Forgets (hs i) (.idle (hs i).own) := ⟨fun _ _ hfd => hfd, nofun⟩
  apply hinv.coherent.forget i hf
  · apply (hinv.coherent.each i).forget hf
    · exact fun fd pipe hfd _ => absurd hfd (Settled.no_writes hset fd pipe)
    · exact fun _ hd => hd.elim
    · exact nofun
  · exact fun _ _ hfd => hfd

/-- The read end that `barrier_begin` returns leaves the holding of its thread. -/
theorem Inv.settle_barrierBegin (hinv : Inv s hs) {i : ι} {n : Notifier} {fd : Fd} {pipe index : Nat}
    (hset : Settled (Function.update noFrame fd (some (.pipeRead pipe))) n (hs i))
    (hposted : (hs i).posted pipe = some index) (hbarrier : (s.threads i).mark = some index) :
    ∃ own, Settled noFrame n (.idle own) ∧
      Coherent s.kernel s.manager (handedOut (s.threads i).mark (.ok (.readFd (some fd))) ++ s.held)
        (Function.update hs i (.idle own)) := by
  have hlocal := hinv.coherent.each i
  have hread := hset.own_of (Function.update_self ..)
  have hback : Function.update (Function.update noFrame fd (some (.pipeRead pipe))) fd none = noFrame := by
    rw [Function.update_idem, Function.update_eq_self_iff]
    rfl
  have hrelease := hset.release (Function.update_self ..)
  rw [hback] at hrelease
  have hset' : Settled noFrame n (.idle ((hs i).release fd).own) := hrelease.of_own rfl
  have hf : Forgets (hs i) (.idle ((hs i).release fd).own) := ⟨forgets_release.own, nofun⟩
  have hwrites : ∀ fd' pipe', (hs i).own fd' ≠ some (.pipeWrite pipe') := by
    intro fd' pipe' hfd'
    rcases hset.of_own_eq hfd' with hsocket | hframe
    · cases hsocket
    · by_cases heq : fd' = fd
      · simp [heq] at hframe
      · simp [Function.update_of_ne heq, noFrame] at hframe
  have hforget : Coherent s.kernel s.manager s.held
      (Function.update hs i (.idle ((hs i).release fd).own)) := by
    apply hinv.coherent.forget i hf
    · apply hlocal.forget hf
      · exact fun fd' pipe' hfd' _ => absurd hfd' (Settled.no_writes hset' fd' pipe')
      · exact fun _ hd => hd.elim
      · exact nofun
    · exact fun fd' pipe' hfd' => absurd hfd' (hwrites fd' pipe')
  refine ⟨_, hset', ?_⟩
  rw [hbarrier]
  apply hforget.handOut (hlocal.own _ _ hread) (hlocal.posted pipe index hposted)
  · intro j
    by_cases hj : j = i
    · subst hj
      simp [Holding.idle]
    · rw [Function.update_of_ne hj]
      rcases (hinv.coherent.apart i j (Ne.symm hj)).own fd with hnone | hnone
      · rw [hread] at hnone
        cases hnone
      · exact hnone
  · intro j
    by_cases hj : j = i
    · subst hj
      rw [Function.update_self]
      rintro (⟨fd', hfd'⟩ | ⟨fd', hfd'⟩ | ⟨index', hp⟩)
      · rcases hset'.of_own_eq hfd' with hsocket | hframe
        · cases hsocket
        · cases hframe
      · exact Settled.no_writes hset' fd' pipe hfd'
      · cases hp
    · rw [Function.update_of_ne hj]
      exact (hinv.coherent.apart i j (Ne.symm hj)).pipes pipe (.inl ⟨fd, hread⟩)
  · intro barrier hb
    have hspare := hlocal.spare fd barrier hb
    rw [hread] at hspare
    cases hspare

theorem Inv.settle (hinv : Inv s hs) {i : ι} {c : Call} {result : Except PyErr Result}
    {n : Notifier} (hrun : (s.threads i).running = some (c, .ret (result, n))) :
    ∃ own, Settled noFrame n (.idle own) ∧
      Coherent s.kernel s.manager (handedOut (s.threads i).mark result ++ s.held)
        (Function.update hs i (.idle own)) := by
  have hfits := hinv.fits i
  have hpost := hfits.running c _ hrun
  cases result with
  | error e =>
    have hset : Settled noFrame n (hs i) := hpost
    exact ⟨(hs i).own, hset.of_own rfl, hinv.forget hset⟩
  | ok result =>
    by_cases hnone : ∀ fd, result ≠ .readFd (some fd)
    · have hset : Settled noFrame n (hs i) := Returns.settled hpost hnone
      have hheld : handedOut (s.threads i).mark (.ok result) = [] := by
        unfold handedOut
        split
        · next fd heq => exact absurd (Except.ok.inj heq) (hnone fd)
        · rfl
      rw [hheld]
      exact ⟨(hs i).own, hset.of_own rfl, hinv.forget hset⟩
    · push Not at hnone
      obtain ⟨fd, rfl⟩ := hnone
      cases c with
      | barrierBegin =>
        obtain ⟨pipe, hset, index, hmark, hposted⟩ := hpost
        exact hinv.settle_barrierBegin hset hposted (hfits.mark.symm.trans hmark)
      | _ => exact False.elim hpost

theorem Sound.mono {m m' : Manager} {r : Report} (hr : Sound m r) (hle : m.processed ≤ m'.processed) :
    Sound m' r := by
  refine ⟨fun hdone => ?_, hr.2⟩
  obtain ⟨index, hindex, hlt⟩ := hr.1 hdone
  exact ⟨index, hindex, Nat.lt_of_lt_of_le hlt hle⟩

theorem Inv.finish (hinv : Inv s hs) {i : ι} {c : Call} {result : Except PyErr Result} {n : Notifier}
    (hrun : (s.threads i).running = some (c, .ret (result, n))) :
    ∃ hs', Inv { s.setThread i ⟨n, none, none, none, false⟩ with
      held := handedOut (s.threads i).mark result ++ s.held
      reports := reported (s.threads i) c result ++ s.reports } hs' := by
  obtain ⟨own, hset, hcoherent⟩ := hinv.settle hrun
  refine ⟨_, hcoherent, hinv.queue, ?_, ?_⟩
  · apply fits_update hinv.fits
    · exact ⟨rfl, nofun, nofun, nofun, fun _ => hset, nofun, nofun, nofun⟩
    · exact fun j _ fd barrier ht => List.mem_append_right _ ((hinv.fits j).target fd barrier ht)
  · intro r hr
    rcases List.mem_append.mp hr with hr | hr
    · exact hinv.sound hrun r hr
    · exact hinv.reports r hr

omit [DecidableEq ι] in
theorem Inv.release (hinv : Inv s hs) {fd : Fd} {barrier : Option Nat} (hheld : (fd, barrier) ∈ s.held)
    (hfree : ∀ i, (s.threads i).target ≠ some (fd, barrier)) (choice : Choice) :
    Inv { s with
      kernel := (s.kernel.perform choice (.close fd)).2
      held := s.held.erase (fd, barrier) } hs := by
  obtain ⟨index, pipe, _, hfile, _⟩ := hinv.coherent.shared.waits fd barrier hheld
  have htarget : ∀ i barrier', (s.threads i).target ≠ some (fd, barrier') := by
    intro i barrier' ht
    have hsame := hinv.coherent.shared.barrier_unique hheld ((hinv.fits i).target fd barrier' ht)
    exact hfree i (hsame ▸ ht)
  have hsees : ∀ i, (hs i).sees fd = none := by
    intro i
    cases hs' : (hs i).sees fd with
    | none => rfl
    | some file =>
      obtain ⟨barrier', ht⟩ := (hinv.fits i).sees fd file hs'
      exact absurd ht (htarget i barrier')
  simp only [Kernel.perform, hfile]
  refine ⟨hinv.coherent.release hheld hsees, hinv.queue.of_sent rfl, fun i => ?_, hinv.reports⟩
  refine { hinv.fits i with target := fun fd' barrier' ht => ?_ }
  refine (List.mem_erase_of_ne ?_).mpr ((hinv.fits i).target fd' barrier' ht)
  rintro heq
  cases heq
  exact hfree i ht

omit [DecidableEq ι] in
theorem Inv.manager (hinv : Inv s hs) {m : Manager}
    (hopen : ∀ pipe, WriteEndOpen s.kernel m pipe → WriteEndOpen s.kernel s.manager pipe)
    (hqueue : InQueue s.kernel m) (hle : s.manager.processed ≤ m.processed) :
    Inv { s with manager := m } hs :=
  ⟨hinv.coherent.manager hopen, hqueue, hinv.fits, fun r hr => (hinv.reports r hr).mono hle⟩

theorem Inv.step (hinv : Inv s hs) (hstep : Step rt s s') : ∃ hs', Inv s' hs' := by
  have hq := hinv.queue
  cases hstep with
  | start i c target hidle hlends htarget => exact hinv.start hidle hlends htarget
  | call i c op next choice hrun hpoll => exact hinv.call hrun hpoll
  | finish i c result n hrun => exact hinv.finish hrun
  | release fd barrier hheld hfree choice => exact ⟨hs, hinv.release hheld hfree choice⟩
  | foreign message hfiles =>
    exact ⟨hs, hinv.coherent.enqueue hfiles, hq.enqueue message, hinv.fits, hinv.reports⟩
  | take message hdone hcopies hnext =>
    refine ⟨hs, hinv.manager ?_ ?_ le_rfl⟩
    · rintro pipe (hfd | ⟨index, hle, hcar⟩ | hcopy)
      · exact .inl hfd
      · exact .inr (.inl ⟨index, Nat.le_of_succ_le hle, hcar⟩)
      · exact .inr (.inl ⟨_, le_rfl, message, hnext, hcopy⟩)
    · refine ⟨?_, .inr ⟨by rw [hdone], fun file hcar => ?_⟩, fun file hf => ?_⟩
      · exact (List.getElem?_eq_some_iff.mp hnext).1
      · obtain ⟨message', hm, hf⟩ := hcar
        rw [hdone, hnext] at hm
        cases hm
        exact hf
      · exact ⟨_, rfl, message, hnext, hf⟩
  | process htaken =>
    refine ⟨hs, hinv.manager (fun _ hw => hw) ?_ (Nat.le_succ _)⟩
    refine ⟨hq.taken, .inl ?_, hq.copies⟩
    rcases hq.progress with hdone | ⟨hnext, _⟩
    · omega
    · exact hnext
  | closeCopy file rest hdone hcopies =>
    refine ⟨hs, hinv.manager ?_ ?_ le_rfl⟩
    · rintro pipe (hfd | hcar | hcopy)
      · exact .inl hfd
      · exact .inr (.inl hcar)
      · exact .inr (.inr (hcopies ▸ List.mem_cons_of_mem _ hcopy))
    · exact ⟨hq.taken, .inl hdone, fun file' hf => hq.copies file' (hcopies ▸ List.mem_cons_of_mem _ hf)⟩

theorem Inv.run (hinv : Inv s hs) (hrun : Relation.ReflTransGen (Step rt) s s') : ∃ hs', Inv s' hs' := by
  induction hrun with
  | refl => exact ⟨hs, hinv⟩
  | tail _ hstep ih =>
    obtain ⟨hs', hinv'⟩ := ih
    exact hinv'.step hstep

/-- In every interleaving of the notifiers' calls with the manager: a barrier
reported done has been processed, and every datagram before it; a read end that
`barrier_begin` returned belongs to a pipe whose write end is in its datagram
or at the manager only; and a call that polls after the manager is finished with
the barrier reports it done. -/
theorem barrier_safety {ι : Type} [DecidableEq ι] (rt : Runtime) (s₀ s : System ι) (h0 : Initial s₀)
    (hrun : Relation.ReflTransGen (Step rt) s₀ s) :
    (∀ r ∈ s.reports, r.done = true → ∃ index, r.barrier = some index ∧
      ∀ j ≤ index, j < s.manager.processed) ∧
    (∀ fd barrier, (fd, barrier) ∈ s.held → ∃ index pipe, barrier = some index ∧
      s.kernel.fileAt fd = some (.pipeRead pipe) ∧ Brings s.kernel index pipe ∧
      (∀ fd', s.kernel.fileAt fd' ≠ some (.pipeWrite pipe)) ∧
      (∀ j, Carries s.kernel j (.pipeWrite pipe) → j = index) ∧
      (.pipeWrite pipe ∈ s.manager.copies → s.manager.taken = index + 1)) ∧
    ∀ r ∈ s.reports, r.late = true → r.done = true := by
  obtain ⟨hs, hinv⟩ := (Inv.initial h0).run hrun
  have hc := hinv.coherent
  refine ⟨fun r hr hdone => ?_, fun fd barrier hheld => ?_, fun r hr => (hinv.reports r hr).2⟩
  · obtain ⟨index, hindex, hlt⟩ := (hinv.reports r hr).1 hdone
    exact ⟨index, hindex, fun j hj => Nat.lt_of_le_of_lt hj hlt⟩
  · obtain ⟨index, pipe, hbarrier, hfile, hbrings⟩ := hc.shared.waits fd barrier hheld
    refine ⟨index, pipe, hbarrier, hfile, hbrings, fun fd' hfd' => ?_, fun j hj => ?_, fun hcopy => ?_⟩
    · obtain ⟨i, hi⟩ := hc.writes fd' pipe hfd'
      exact (hc.each i).strange fd barrier pipe hheld hfile (.inr (.inl ⟨fd', hi⟩))
    · exact hc.shared.once j index pipe hj hbrings.carries
    · obtain ⟨j, hj, hcar⟩ := hinv.queue.copies _ hcopy
      rw [hc.shared.once j index pipe hcar hbrings.carries] at hj
      exact hj.symm

/-! One notifier, one barrier. -/

def start : System Unit where
  kernel := .bare
  manager := ⟨0, 0, []⟩
  threads _ := ⟨⟨none, some (bytes "/n"), none⟩, none, none, none, false⟩
  held := []
  reports := []

theorem start_initial : Initial start :=
  ⟨rfl, nofun, rfl, fun _ => ⟨_, rfl, rfl⟩, rfl, rfl⟩

def grant (fd fd' events : Nat) : Choice := ⟨none, fd, fd', 0, events⟩

def sentKernel : Kernel :=
  { Kernel.bare with
    table := Function.update (Function.update (Function.update (Function.update (fun _ => none)
      3 (some ⟨.pipeRead 0, true⟩)) 4 (some ⟨.pipeWrite 0, true⟩)) 5 (some ⟨.socket, true⟩)) 4 none
    pipes := 1
    sent := [⟨bytes "/n", barrierPayload, [.pipeWrite 0]⟩]
    closes := [some (.pipeWrite 0)] }

theorem sentKernel_closed (pipe : Nat) : ¬ WriteEndOpen sentKernel ⟨1, 1, []⟩ pipe := by
  rintro (⟨fd, hfd⟩ | ⟨index, hle, message, hm, _⟩ | hcopy)
  · simp only [Kernel.fileAt, sentKernel, Function.update_apply] at hfd
    split at hfd
    · cases hfd
    · split at hfd
      · cases hfd
      · split at hfd
        · cases hfd
        · cases hfd
  · have hpos : 1 ≤ index := hle
    have hnone : index ≠ 0 := by omega
    simp [sentKernel, hnone] at hm
  · cases hcopy

theorem barrier_safety_start : ∃ s : System Unit, s.reports = [⟨some 0, true, true⟩] ∧
    ∀ r ∈ s.reports, r.done = true → ∃ index, r.barrier = some index ∧
      ∀ j ≤ index, j < s.manager.processed := by
  have h1 : Relation.ReflTransGen (Step .unixPort) start _ :=
    .single (Step.start start () (.barrier 5000) none rfl id rfl)
  have h2 := h1.tail (Step.call _ () (.barrier 5000) .pipe _ (grant 3 4 0) rfl trivial)
  have h3 := h2.tail (Step.call _ () (.barrier 5000) .socket _ (grant 5 0 0) rfl trivial)
  have h4 := h3.tail (Step.call _ () (.barrier 5000) (.sendmsg 5 (bytes "/n") barrierPayload [4]) _
    (grant 0 0 0) rfl trivial)
  have h5 := h4.tail (Step.call _ () (.barrier 5000) (.close 4) _ (grant 0 0 0) rfl trivial)
  have h6 := h5.tail (Step.take _ ⟨bytes "/n", barrierPayload, [.pipeWrite 0]⟩ rfl rfl rfl)
  have h7 := h6.tail (Step.process _ (by decide))
  have h8 := h7.tail (Step.closeCopy _ (.pipeWrite 0) [] rfl rfl)
  have h9 := h8.tail (Step.call _ () (.barrier 5000) (.poll 3 (pollin ||| pollhup) 5000) _
    (grant 0 0 pollhup) rfl fun pipe _ => iff_of_true (by decide) (sentKernel_closed pipe))
  have h10 := h9.tail (Step.call _ () (.barrier 5000) (.close 3) _ (grant 0 0 0) rfl trivial)
  have h11 := h10.tail (Step.finish _ () (.barrier 5000) (.ok (.bool true)) _ rfl)
  exact ⟨_, rfl, (barrier_safety .unixPort start _ start_initial h11).1⟩

end Mpsystemd.Barrier
