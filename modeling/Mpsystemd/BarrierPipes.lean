import Mpsystemd.Barrier

/-! Where the ends of the barriers' pipes are: each belongs to one thread, to a
datagram or to a caller, whichever thread or manager acts next. -/

namespace Mpsystemd.Barrier

open Notifier Holding

variable {ι : Type} {k k' : Kernel} {m m' : Manager} {held : List (Fd × Option Nat)}
  {h h' : Holding} {hs : ι → Holding}

def Knows (h : Holding) (pipe : Nat) : Prop :=
  (∃ fd, h.own fd = some (.pipeRead pipe)) ∨ (∃ fd, h.own fd = some (.pipeWrite pipe)) ∨
    ∃ index, h.posted pipe = some index

def Brings (k : Kernel) (index pipe : Nat) : Prop :=
  ∃ message, k.sent[index]? = some message ∧ message.files = [.pipeWrite pipe]

theorem Brings.carries {index pipe : Nat} (hb : Brings k index pipe) :
    Carries k index (.pipeWrite pipe) := by
  obtain ⟨message, hm, hf⟩ := hb
  exact ⟨message, hm, by simp [hf]⟩

/-- One holding describes the process and the queue truly. -/
structure Local (k : Kernel) (m : Manager) (held : List (Fd × Option Nat)) (h : Holding) : Prop where
  own : ∀ fd file, h.own fd = some file → k.fileAt fd = some file
  bound : ∀ pipe, Knows h pipe → pipe < k.pipes
  posted : ∀ pipe index, h.posted pipe = some index → Brings k index pipe
  unposted : ∀ fd pipe index, h.own fd = some (.pipeWrite pipe) → h.posted pipe = none →
    ¬ Carries k index (.pipeWrite pipe)
  drained : ∀ pipe, h.drained pipe → pipe < k.pipes ∧ ¬ WriteEndOpen k m pipe
  sees : ∀ fd file, h.sees fd = some file → k.fileAt fd = some file ∧ ∃ barrier, (fd, barrier) ∈ held
  spare : ∀ fd barrier, (fd, barrier) ∈ held → h.own fd = none
  strange : ∀ fd barrier pipe, (fd, barrier) ∈ held → k.fileAt fd = some (.pipeRead pipe) →
    ¬ Knows h pipe

/-- Two holdings share no descriptor and no pipe. -/
structure Apart (h h' : Holding) : Prop where
  own : ∀ fd, h.own fd = none ∨ h'.own fd = none
  pipes : ∀ pipe, Knows h pipe → ¬ Knows h' pipe

/-- The read ends the callers hold, and what the datagrams carry. -/
structure Shared (k : Kernel) (held : List (Fd × Option Nat)) : Prop where
  waits : ∀ fd barrier, (fd, barrier) ∈ held → ∃ index pipe, barrier = some index ∧
    k.fileAt fd = some (.pipeRead pipe) ∧ Brings k index pipe
  carried : ∀ index pipe, Carries k index (.pipeWrite pipe) → pipe < k.pipes ∧ Brings k index pipe
  once : ∀ i j pipe, Carries k i (.pipeWrite pipe) → Carries k j (.pipeWrite pipe) → i = j
  nodup : (held.map Prod.fst).Nodup

structure Coherent (k : Kernel) (m : Manager) (held : List (Fd × Option Nat)) (hs : ι → Holding) :
    Prop where
  each : ∀ i, Local k m held (hs i)
  apart : ∀ i j, i ≠ j → Apart (hs i) (hs j)
  shared : Shared k held
  writes : ∀ fd pipe, k.fileAt fd = some (.pipeWrite pipe) → ∃ i, (hs i).own fd = some (.pipeWrite pipe)

/-! Holdings that forget and learn. -/

structure Forgets (h h' : Holding) : Prop where
  own : ∀ fd file, h'.own fd = some file → h.own fd = some file
  posted : ∀ pipe index, h'.posted pipe = some index → h.posted pipe = some index

theorem Forgets.knows (hf : Forgets h h') {pipe : Nat} (hk : Knows h' pipe) : Knows h pipe := by
  rcases hk with ⟨fd, hfd⟩ | ⟨fd, hfd⟩ | ⟨index, hp⟩
  · exact .inl ⟨fd, hf.own _ _ hfd⟩
  · exact .inr (.inl ⟨fd, hf.own _ _ hfd⟩)
  · exact .inr (.inr ⟨index, hf.posted _ _ hp⟩)

theorem Forgets.own_eq_none (hf : Forgets h h') {fd : Fd} (hfd : h.own fd = none) :
    h'.own fd = none := by
  cases hown : h'.own fd with
  | none => rfl
  | some file => rw [hf.own fd file hown] at hfd; cases hfd

theorem Apart.symm (ha : Apart h h') : Apart h' h :=
  ⟨fun fd => (ha.own fd).symm, fun pipe hk hk' => ha.pipes pipe hk' hk⟩

theorem Apart.forget {h'' : Holding} (ha : Apart h h'') (hf : Forgets h h') : Apart h' h'' :=
  ⟨fun fd => (ha.own fd).imp_left hf.own_eq_none, fun pipe hk => ha.pipes pipe (hf.knows hk)⟩

theorem Local.forget (hl : Local k m held h) (hf : Forgets h h')
    (hunposted : ∀ fd pipe, h'.own fd = some (.pipeWrite pipe) → h'.posted pipe = none →
      h.posted pipe = none)
    (hdrained : ∀ pipe, h'.drained pipe → h.drained pipe)
    (hsees : ∀ fd file, h'.sees fd = some file → k.fileAt fd = some file ∧ ∃ b, (fd, b) ∈ held) :
    Local k m held h' where
  own fd file hfd := hl.own fd file (hf.own fd file hfd)
  bound pipe hk := hl.bound pipe (hf.knows hk)
  posted pipe index hp := hl.posted pipe index (hf.posted pipe index hp)
  unposted fd pipe index hfd hp :=
    hl.unposted fd pipe index (hf.own _ _ hfd) (hunposted fd pipe hfd hp)
  drained pipe hd := hl.drained pipe (hdrained pipe hd)
  sees := hsees
  spare fd barrier hheld := hf.own_eq_none (hl.spare fd barrier hheld)
  strange fd barrier pipe hheld hfile hk := hl.strange fd barrier pipe hheld hfile (hf.knows hk)

theorem Local.frame (hl : Local k m held h)
    (hfile : ∀ fd, h.own fd ≠ none ∨ (∃ barrier, (fd, barrier) ∈ held) → k'.fileAt fd = k.fileAt fd)
    (hpipes : k.pipes ≤ k'.pipes) (hbrings : ∀ index pipe, Brings k index pipe → Brings k' index pipe)
    (hcarries : ∀ index pipe, Knows h pipe → Carries k' index (.pipeWrite pipe) →
      Carries k index (.pipeWrite pipe))
    (hopen : ∀ pipe, h.drained pipe → WriteEndOpen k' m' pipe → WriteEndOpen k m pipe) :
    Local k' m' held h where
  own fd file hfd := by
    rw [hfile fd (.inl (by simp [hfd]))]
    exact hl.own fd file hfd
  bound pipe hk := Nat.lt_of_lt_of_le (hl.bound pipe hk) hpipes
  posted pipe index hp := hbrings index pipe (hl.posted pipe index hp)
  unposted fd pipe index hfd hp hc :=
    hl.unposted fd pipe index hfd hp (hcarries index pipe (.inr (.inl ⟨fd, hfd⟩)) hc)
  drained pipe hd := by
    obtain ⟨hlt, hclosed⟩ := hl.drained pipe hd
    exact ⟨Nat.lt_of_lt_of_le hlt hpipes, fun hw => hclosed (hopen pipe hd hw)⟩
  sees fd file hfd := by
    obtain ⟨hf, hheld⟩ := hl.sees fd file hfd
    exact ⟨(hfile fd (.inr hheld)).trans hf, hheld⟩
  spare := hl.spare
  strange fd barrier pipe hheld hf :=
    hl.strange fd barrier pipe hheld ((hfile fd (.inr ⟨barrier, hheld⟩)).symm.trans hf)

theorem knows_acquire {fd : Fd} {file : File} {pipe : Nat} (hk : Knows (h.acquire fd file) pipe) :
    Knows h pipe ∨ file = .pipeRead pipe ∨ file = .pipeWrite pipe := by
  rcases hk with ⟨fd', hfd⟩ | ⟨fd', hfd⟩ | hp
  · by_cases heq : fd' = fd
    · exact .inr (.inl (by simpa [heq] using hfd))
    · exact .inl (.inl ⟨fd', by simpa [Function.update_of_ne heq] using hfd⟩)
  · by_cases heq : fd' = fd
    · exact .inr (.inr (by simpa [heq] using hfd))
    · exact .inl (.inr (.inl ⟨fd', by simpa [Function.update_of_ne heq] using hfd⟩))
  · exact .inl (.inr (.inr hp))

theorem Local.acquire {fd : Fd} {file : File} (hl : Local k m held h)
    (hfile : k.fileAt fd = some file) (hheld : ∀ barrier, (fd, barrier) ∉ held)
    (hnew : ∀ pipe, file = .pipeRead pipe ∨ file = .pipeWrite pipe → pipe < k.pipes ∧
      (∀ index, ¬ Carries k index (.pipeWrite pipe)) ∧
      ∀ fd barrier, (fd, barrier) ∈ held → k.fileAt fd ≠ some (.pipeRead pipe)) :
    Local k m held (h.acquire fd file) where
  own fd' file' hfd := by
    by_cases heq : fd' = fd
    · subst heq
      have hf : file = file' := by simpa using hfd
      exact hf ▸ hfile
    · exact hl.own fd' file' (by simpa [Function.update_of_ne heq] using hfd)
  bound pipe hk := by
    rcases knows_acquire hk with hk | hf
    · exact hl.bound pipe hk
    · exact (hnew pipe hf).1
  posted := hl.posted
  unposted fd' pipe index hfd hp := by
    by_cases heq : fd' = fd
    · exact (hnew pipe (.inr (by simpa [heq] using hfd))).2.1 index
    · exact hl.unposted fd' pipe index (by simpa [Function.update_of_ne heq] using hfd) hp
  drained := hl.drained
  sees := hl.sees
  spare fd' barrier hb := by
    have hne : fd' ≠ fd := fun heq => hheld barrier (heq ▸ hb)
    simpa [Function.update_of_ne hne] using hl.spare fd' barrier hb
  strange fd' barrier pipe hb hf hk := by
    rcases knows_acquire hk with hk | hfile
    · exact hl.strange fd' barrier pipe hb hf hk
    · exact (hnew pipe hfile).2.2 fd' barrier hb hf

theorem Apart.acquire {fd : Fd} {file : File} (ha : Apart h h') (hfd : h'.own fd = none)
    (hnew : ∀ pipe, file = .pipeRead pipe ∨ file = .pipeWrite pipe → ¬ Knows h' pipe) :
    Apart (h.acquire fd file) h' where
  own fd' := by
    by_cases heq : fd' = fd
    · exact .inr (heq ▸ hfd)
    · simpa [Function.update_of_ne heq] using ha.own fd'
  pipes pipe hk := by
    rcases knows_acquire hk with hk | hf
    · exact ha.pipes pipe hk
    · exact hnew pipe hf

theorem forgets_release {fd : Fd} : Forgets h (h.release fd) where
  own fd' file hfd := by
    by_cases heq : fd' = fd
    · simp [heq] at hfd
    · simpa [Function.update_of_ne heq] using hfd
  posted _ _ hp := hp

/-! One thread acts. -/

theorem Coherent.own_none (hc : Coherent k m held hs) {fd : Fd} (hfd : k.fileAt fd = none) (j : ι) :
    (hs j).own fd = none := by
  cases hown : (hs j).own fd with
  | none => rfl
  | some file =>
    have hfile := (hc.each j).own fd file hown
    rw [hfd] at hfile
    cases hfile

theorem Coherent.not_held (hc : Coherent k m held hs) {fd : Fd} (hfd : k.fileAt fd = none)
    (barrier : Option Nat) : (fd, barrier) ∉ held := by
  intro hheld
  obtain ⟨_, _, _, hfile, _⟩ := hc.shared.waits fd barrier hheld
  rw [hfd] at hfile
  cases hfile

theorem Coherent.update [DecidableEq ι] (hc : Coherent k m held hs) (i : ι) (hlocal : Local k' m' held h')
    (hframe : ∀ j, j ≠ i → Local k' m' held (hs j)) (hapart : ∀ j, j ≠ i → Apart h' (hs j))
    (hshared : Shared k' held)
    (hwrites : ∀ fd pipe, k'.fileAt fd = some (.pipeWrite pipe) →
      h'.own fd = some (.pipeWrite pipe) ∨
        k.fileAt fd = some (.pipeWrite pipe) ∧ (hs i).own fd ≠ some (.pipeWrite pipe)) :
    Coherent k' m' held (Function.update hs i h') where
  each j := by
    by_cases hj : j = i
    · subst hj
      simpa using hlocal
    · simpa [Function.update_of_ne hj] using hframe j hj
  apart j j' hne := by
    by_cases hj : j = i
    · subst hj
      simpa [Function.update_of_ne hne.symm] using hapart j' hne.symm
    · by_cases hj' : j' = i
      · subst hj'
        simpa [Function.update_of_ne hj] using (hapart j hj).symm
      · simpa [Function.update_of_ne hj, Function.update_of_ne hj'] using hc.apart j j' hne
  shared := hshared
  writes fd pipe hfd := by
    rcases hwrites fd pipe hfd with hown | ⟨hold, hnot⟩
    · exact ⟨i, by simpa using hown⟩
    · obtain ⟨j, hj⟩ := hc.writes fd pipe hold
      have hne : j ≠ i := fun heq => hnot (heq ▸ hj)
      exact ⟨j, by simpa [Function.update_of_ne hne] using hj⟩

theorem Local.install {fd : Fd} {file : File} (hl : Local k m held h) (hfd : h.own fd = none)
    (hheld : ∀ barrier, (fd, barrier) ∉ held)
    (hfile : ∀ pipe, file = .pipeWrite pipe → ¬ h.drained pipe) :
    Local (k.install fd ⟨file, true⟩) m held h := by
  apply hl.frame
  · intro fd' hused
    have hne : fd' ≠ fd := by
      rintro rfl
      rcases hused with hown | ⟨barrier, hb⟩
      · exact hown hfd
      · exact hheld barrier hb
    rw [Kernel.fileAt_install, if_neg hne]
  · exact le_rfl
  · exact fun _ _ hb => hb
  · exact fun _ _ _ hcar => hcar
  · intro pipe hd hw
    rcases hw with ⟨fd', hfd'⟩ | hw
    · rw [Kernel.fileAt_install] at hfd'
      split at hfd'
      · exact absurd hd (hfile pipe (by simpa using hfd'))
      · exact .inl ⟨fd', hfd'⟩
    · exact .inr hw

theorem Shared.install {fd : Fd} {d : Descriptor} (hsh : Shared k held)
    (hheld : ∀ barrier, (fd, barrier) ∉ held) : Shared (k.install fd d) held where
  waits fd' barrier hb := by
    obtain ⟨index, pipe, hbarrier, hfile, hbrings⟩ := hsh.waits fd' barrier hb
    have hne : fd' ≠ fd := fun heq => hheld barrier (heq ▸ hb)
    refine ⟨index, pipe, hbarrier, ?_, hbrings⟩
    rw [Kernel.fileAt_install, if_neg hne, hfile]
  carried := hsh.carried
  once := hsh.once
  nodup := hsh.nodup

structure Unheard (k : Kernel) (held : List (Fd × Option Nat)) (hs : ι → Holding) (i : ι)
    (pipe : Nat) : Prop where
  bound : pipe < k.pipes
  carried : ∀ index, ¬ Carries k index (.pipeWrite pipe)
  waits : ∀ fd barrier, (fd, barrier) ∈ held → k.fileAt fd ≠ some (.pipeRead pipe)
  others : ∀ j, j ≠ i → ¬ Knows (hs j) pipe
  drained : ∀ j, ¬ (hs j).drained pipe

theorem Coherent.install [DecidableEq ι] (hc : Coherent k m held hs) (i : ι) {fd : Fd} {file : File}
    (hfd : k.fileAt fd = none)
    (hnew : ∀ pipe, file = .pipeRead pipe ∨ file = .pipeWrite pipe → Unheard k held hs i pipe) :
    Coherent (k.install fd ⟨file, true⟩) m held (Function.update hs i ((hs i).acquire fd file)) := by
  have hheld := hc.not_held hfd
  have hinstall : ∀ j, Local (k.install fd ⟨file, true⟩) m held (hs j) := fun j =>
    (hc.each j).install (hc.own_none hfd j) hheld fun pipe hf => (hnew pipe (.inr hf)).drained j
  apply hc.update i
  · apply (hinstall i).acquire
    · rw [Kernel.fileAt_install, if_pos rfl]
    · exact hheld
    · intro pipe hf
      refine ⟨(hnew pipe hf).bound, (hnew pipe hf).carried, fun fd' barrier hb => ?_⟩
      have hne : fd' ≠ fd := fun heq => hheld barrier (heq ▸ hb)
      rw [Kernel.fileAt_install, if_neg hne]
      exact (hnew pipe hf).waits fd' barrier hb
  · exact fun j _ => hinstall j
  · intro j hj
    exact (hc.apart i j hj.symm).acquire (hc.own_none hfd j) fun pipe hf => (hnew pipe hf).others j hj
  · exact hc.shared.install hheld
  · intro fd' pipe hfd'
    rw [Kernel.fileAt_install] at hfd'
    split at hfd'
    · next heq => exact .inl (by simpa [heq] using hfd')
    · next hne =>
      by_cases hown : (hs i).own fd' = some (.pipeWrite pipe)
      · exact .inl (by simpa [Function.update_of_ne hne] using hown)
      · exact .inr ⟨hfd', hown⟩

theorem Coherent.openPipe [DecidableEq ι] (hc : Coherent k m held hs) (i : ι) {r w : Fd}
    (hr : k.fileAt r = none) (hw : k.fileAt w = none) (hrw : r ≠ w) :
    Coherent { (k.install r ⟨.pipeRead k.pipes, true⟩).install w ⟨.pipeWrite k.pipes, true⟩ with
        pipes := k.pipes + 1 } m held
      (Function.update hs i (((hs i).acquire r (.pipeRead k.pipes)).acquire w (.pipeWrite k.pipes))) := by
  have hfresh : ∀ j, ¬ Knows (hs j) k.pipes := fun j hk => absurd ((hc.each j).bound _ hk) (by omega)
  have hcarried : ∀ index, ¬ Carries k index (.pipeWrite k.pipes) := fun index hcar =>
    absurd (hc.shared.carried index _ hcar).1 (by omega)
  have hwaits : ∀ fd barrier, (fd, barrier) ∈ held → k.fileAt fd ≠ some (.pipeRead k.pipes) := by
    intro fd barrier hb hf
    obtain ⟨index, pipe, _, hfile, hbrings⟩ := hc.shared.waits fd barrier hb
    rw [hf, Option.some.injEq, File.pipeRead.injEq] at hfile
    exact hcarried index (hfile ▸ hbrings.carries)
  have hdrained : ∀ j, ¬ (hs j).drained k.pipes := fun j hd =>
    absurd ((hc.each j).drained _ hd).1 (by omega)
  -- The number is taken before the descriptors are.
  have hnumber : Coherent { k with pipes := k.pipes + 1 } m held hs := by
    refine ⟨fun j => ?_, hc.apart, ?_, hc.writes⟩
    · apply (hc.each j).frame
      · exact fun _ _ => rfl
      · exact Nat.le_succ _
      · exact fun _ _ hb => hb
      · exact fun _ _ _ hcar => hcar
      · exact fun _ _ hopen => hopen
    · refine ⟨hc.shared.waits, fun index pipe hcar => ?_, hc.shared.once, hc.shared.nodup⟩
      exact ⟨Nat.lt_succ_of_lt (hc.shared.carried index pipe hcar).1,
        (hc.shared.carried index pipe hcar).2⟩
  have hread : Coherent ({ k with pipes := k.pipes + 1 }.install r ⟨.pipeRead k.pipes, true⟩) m held
      (Function.update hs i ((hs i).acquire r (.pipeRead k.pipes))) := by
    apply hnumber.install i hr
    intro pipe hpipe
    have heq : k.pipes = pipe := by simpa using hpipe
    subst heq
    exact ⟨Nat.lt_succ_self _, hcarried, hwaits, fun j _ => hfresh j, hdrained⟩
  have hw' : ({ k with pipes := k.pipes + 1 }.install r ⟨.pipeRead k.pipes, true⟩).fileAt w = none := by
    rw [Kernel.fileAt_install, if_neg hrw.symm]
    exact hw
  have hboth : Coherent (({ k with pipes := k.pipes + 1 }.install r ⟨.pipeRead k.pipes, true⟩).install w
      ⟨.pipeWrite k.pipes, true⟩) m held (Function.update
        (Function.update hs i ((hs i).acquire r (.pipeRead k.pipes))) i
        ((Function.update hs i ((hs i).acquire r (.pipeRead k.pipes)) i).acquire w
          (.pipeWrite k.pipes))) := by
    apply hread.install i hw'
    intro pipe hpipe
    have heq : k.pipes = pipe := by simpa using hpipe
    subst heq
    refine ⟨Nat.lt_succ_self _, hcarried, fun fd barrier hb => ?_, fun j hj => ?_, fun j => ?_⟩
    · have hne : fd ≠ r := fun heq => hnumber.not_held hr barrier (heq ▸ hb)
      rw [Kernel.fileAt_install, if_neg hne]
      exact hwaits fd barrier hb
    · simpa [Function.update_of_ne hj] using hfresh j
    · by_cases hj : j = i
      · subst hj
        rw [Function.update_self]
        exact hdrained j
      · simpa [Function.update_of_ne hj] using hdrained j
  rw [Function.update_idem, Function.update_self] at hboth
  exact hboth

theorem Coherent.close [DecidableEq ι] (hc : Coherent k m held hs) (i : ι) {fd : Fd} {file : File}
    (hfd : (hs i).own fd = some file) {closes : List (Option File)} :
    Coherent { k.remove fd with closes := closes } m held
      (Function.update hs i ((hs i).release fd)) := by
  have hfile : ∀ fd', fd' ≠ fd → { k.remove fd with closes := closes }.fileAt fd' = k.fileAt fd' :=
    fun fd' hne => (k.fileAt_remove fd fd').trans (if_neg hne)
  have hheld : ∀ barrier, (fd, barrier) ∉ held := by
    intro barrier hb
    have hnone := (hc.each i).spare fd barrier hb
    rw [hfd] at hnone
    cases hnone
  have hopen : ∀ pipe, WriteEndOpen { k.remove fd with closes := closes } m pipe →
      WriteEndOpen k m pipe := by
    rintro pipe (⟨fd', hfd'⟩ | hw)
    · by_cases hne : fd' = fd
      · have hgone := k.fileAt_remove fd fd'
        rw [if_pos hne] at hgone
        exact absurd (hgone.symm.trans hfd') nofun
      · exact .inl ⟨fd', (hfile fd' hne).symm.trans hfd'⟩
    · exact .inr hw
  have hframe : ∀ h, Local k m held h → h.own fd = none →
      Local { k.remove fd with closes := closes } m held h := by
    intro h hl hnone
    apply hl.frame
    · intro fd' hused
      apply hfile
      rintro rfl
      rcases hused with hown | ⟨barrier, hb⟩
      · exact hown hnone
      · exact hheld barrier hb
    · exact le_rfl
    · exact fun _ _ hb => hb
    · exact fun _ _ _ hcar => hcar
    · exact fun pipe _ => hopen pipe
  apply hc.update i
  · refine hframe _ ((hc.each i).forget forgets_release ?_ (fun _ hd => hd) (hc.each i).sees) ?_
    · exact fun _ _ _ hp => hp
    · simp
  · intro j hj
    refine hframe _ (hc.each j) ?_
    rcases (hc.apart i j hj.symm).own fd with hnone | hnone
    · rw [hfd] at hnone
      cases hnone
    · exact hnone
  · exact fun j hj => (hc.apart i j hj.symm).forget forgets_release
  · refine ⟨fun fd' barrier hb => ?_, hc.shared.carried, hc.shared.once, hc.shared.nodup⟩
    obtain ⟨index, pipe, hbarrier, hf, hbrings⟩ := hc.shared.waits fd' barrier hb
    have hne : fd' ≠ fd := fun heq => hheld barrier (heq ▸ hb)
    exact ⟨index, pipe, hbarrier, (hfile fd' hne).trans hf, hbrings⟩
  · intro fd' pipe hfd'
    by_cases hne : fd' = fd
    · have hgone := k.fileAt_remove fd fd'
      rw [if_pos hne] at hgone
      exact absurd (hgone.symm.trans hfd') nofun
    · have hold := (hfile fd' hne).symm.trans hfd'
      by_cases hown : (hs i).own fd' = some (.pipeWrite pipe)
      · exact .inl (by simpa [Function.update_of_ne hne] using hown)
      · exact .inr ⟨hold, hown⟩

theorem Coherent.forget [DecidableEq ι] (hc : Coherent k m held hs) (i : ι)
    (hf : Forgets (hs i) h') (hlocal : Local k m held h')
    (hwrites : ∀ fd pipe, (hs i).own fd = some (.pipeWrite pipe) → h'.own fd = some (.pipeWrite pipe)) :
    Coherent k m held (Function.update hs i h') := by
  apply hc.update i hlocal
  · exact fun j _ => hc.each j
  · exact fun j hj => (hc.apart i j hj.symm).forget hf
  · exact hc.shared
  · intro fd pipe hfd
    by_cases hown : (hs i).own fd = some (.pipeWrite pipe)
    · exact .inl (hwrites fd pipe hown)
    · exact .inr ⟨hfd, hown⟩

/-! One more datagram. -/

section Enqueue

variable {message : Message}

def enqueue (k : Kernel) (message : Message) : Kernel := { k with sent := k.sent ++ [message] }

theorem sent_enqueue {index : Nat} {msg : Message} :
    (enqueue k message).sent[index]? = some msg ↔
      k.sent[index]? = some msg ∨ index = k.sent.length ∧ message = msg := by
  show (k.sent ++ [message])[index]? = some msg ↔ _
  rw [List.getElem?_append]
  split
  · next hlt =>
    have hne : index ≠ k.sent.length := by omega
    simp [hne]
  · next hge =>
    have hnone : k.sent[index]? = none := by simpa using hge
    rw [hnone]
    by_cases heq : index = k.sent.length
    · simp [heq]
    · have hone : index - k.sent.length ≠ 0 := by omega
      obtain ⟨n, hn⟩ := Nat.exists_eq_succ_of_ne_zero hone
      simp [hn, heq]

theorem carries_enqueue {index : Nat} {file : File} :
    Carries (enqueue k message) index file ↔
      Carries k index file ∨ index = k.sent.length ∧ file ∈ message.files := by
  simp only [Carries, sent_enqueue]
  constructor
  · rintro ⟨msg, hm | ⟨hlen, rfl⟩, hf⟩
    · exact .inl ⟨msg, hm, hf⟩
    · exact .inr ⟨hlen, hf⟩
  · rintro (⟨msg, hm, hf⟩ | ⟨hlen, hf⟩)
    · exact ⟨msg, .inl hm, hf⟩
    · exact ⟨message, .inr ⟨hlen, rfl⟩, hf⟩

theorem Brings.enqueue {index pipe : Nat} (hb : Brings k index pipe) :
    Brings (enqueue k message) index pipe := by
  obtain ⟨msg, hm, hf⟩ := hb
  exact ⟨msg, sent_enqueue.mpr (.inl hm), hf⟩

theorem Local.enqueue (hl : Local k m held h)
    (hmessage : ∀ pipe, .pipeWrite pipe ∈ message.files → WriteEndOpen k m pipe ∧ ¬ Knows h pipe) :
    Local (enqueue k message) m held h := by
  apply hl.frame
  · exact fun _ _ => rfl
  · exact le_rfl
  · exact fun _ _ hb => hb.enqueue
  · intro index pipe hk hcar
    rcases carries_enqueue.mp hcar with hcar | ⟨_, hf⟩
    · exact hcar
    · exact absurd hk (hmessage pipe hf).2
  · rintro pipe _ (hfd | ⟨index, hle, hcar⟩ | hcopy)
    · exact .inl hfd
    · rcases carries_enqueue.mp hcar with hcar | ⟨_, hf⟩
      · exact .inr (.inl ⟨index, hle, hcar⟩)
      · exact (hmessage pipe hf).1
    · exact .inr (.inr hcopy)

theorem Shared.enqueue (hsh : Shared k held)
    (hmessage : ∀ pipe, .pipeWrite pipe ∈ message.files → pipe < k.pipes ∧
      message.files = [.pipeWrite pipe] ∧ ∀ index, ¬ Carries k index (.pipeWrite pipe)) :
    Shared (enqueue k message) held where
  waits fd barrier hb := by
    obtain ⟨index, pipe, hbarrier, hf, hbrings⟩ := hsh.waits fd barrier hb
    exact ⟨index, pipe, hbarrier, hf, hbrings.enqueue⟩
  carried index pipe hcar := by
    rcases carries_enqueue.mp hcar with hcar | ⟨hlen, hf⟩
    · exact ⟨(hsh.carried index pipe hcar).1, (hsh.carried index pipe hcar).2.enqueue⟩
    · obtain ⟨hlt, hone, _⟩ := hmessage pipe hf
      exact ⟨hlt, message, sent_enqueue.mpr (.inr ⟨hlen, rfl⟩), hone⟩
  once i j pipe hi hj := by
    rcases carries_enqueue.mp hi with hi | ⟨hi, hfi⟩
    · rcases carries_enqueue.mp hj with hj | ⟨_, hfj⟩
      · exact hsh.once i j pipe hi hj
      · exact absurd hi ((hmessage pipe hfj).2.2 i)
    · rcases carries_enqueue.mp hj with hj | ⟨hj, _⟩
      · exact absurd hj ((hmessage pipe hfi).2.2 j)
      · exact hi.trans hj.symm
  nodup := hsh.nodup

theorem Coherent.enqueue (hc : Coherent k m held hs)
    (hmessage : ∀ pipe, .pipeWrite pipe ∉ message.files) :
    Coherent (enqueue k message) m held hs where
  each j := (hc.each j).enqueue fun pipe hf => absurd hf (hmessage pipe)
  apart := hc.apart
  shared := hc.shared.enqueue fun pipe hf => absurd hf (hmessage pipe)
  writes := hc.writes

theorem knows_post {fds : List Fd} {index pipe : Nat} (hk : Knows (h.post fds index) pipe) :
    Knows h pipe := by
  rcases hk with hfd | hfd | ⟨index', hp⟩
  · exact .inl hfd
  · exact .inr (.inl hfd)
  · by_cases hattached : ∃ fd ∈ fds, h.own fd = some (.pipeWrite pipe)
    · obtain ⟨fd, _, hfd⟩ := hattached
      exact .inr (.inl ⟨fd, hfd⟩)
    · exact .inr (.inr ⟨index', by simpa [Holding.post, hattached] using hp⟩)

theorem Coherent.postPlain [DecidableEq ι] (hc : Coherent k m held hs) (i : ι)
    (hfiles : message.files = []) :
    Coherent (Barrier.enqueue k message) m held
      (Function.update hs i ((hs i).post [] k.sent.length)) := by
  have hnext : Coherent (Barrier.enqueue k message) m held hs :=
    hc.enqueue fun pipe hf => by simp [hfiles] at hf
  have hposted : ∀ pipe, ((hs i).post [] k.sent.length).posted pipe = (hs i).posted pipe := by
    intro pipe
    simp [Holding.post]
  have hf : Forgets (hs i) ((hs i).post [] k.sent.length) :=
    ⟨fun _ _ hfd => hfd, fun pipe index hp => (hposted pipe).symm.trans hp⟩
  apply hnext.forget i hf
  · apply (hnext.each i).forget hf
    · exact fun _ pipe _ hp => (hposted pipe).symm.trans hp
    · exact fun _ hd => hd
    · exact (hnext.each i).sees
  · exact fun _ _ hfd => hfd

theorem Coherent.postWriteEnd [DecidableEq ι] (hc : Coherent k m held hs) (i : ι) {fd : Fd}
    {pipe : Nat} (hfd : (hs i).own fd = some (.pipeWrite pipe)) (hpipe : (hs i).posted pipe = none)
    (hfiles : message.files = [.pipeWrite pipe]) :
    Coherent (Barrier.enqueue k message) m held
      (Function.update hs i ((hs i).post [fd] k.sent.length)) := by
  have hl := hc.each i
  have hknows : Knows (hs i) pipe := .inr (.inl ⟨fd, hfd⟩)
  have hopen : WriteEndOpen k m pipe := .inl ⟨fd, hl.own fd _ hfd⟩
  have hposted : ∀ pipe', ((hs i).post [fd] k.sent.length).posted pipe' =
      if pipe' = pipe then some k.sent.length else (hs i).posted pipe' := by
    intro pipe'
    simp [Holding.post, hfd, eq_comm]
  apply hc.update i
  · constructor
    · exact hl.own
    · exact fun pipe' hk => hl.bound pipe' (knows_post hk)
    · intro pipe' index hp
      rw [hposted] at hp
      split at hp
      · next heq =>
        cases hp
        exact ⟨message, sent_enqueue.mpr (.inr ⟨rfl, rfl⟩), heq ▸ hfiles⟩
      · exact (hl.posted pipe' index hp).enqueue
    · intro fd' pipe' index hfd' hp hcar
      rw [hposted] at hp
      split at hp
      · cases hp
      · next hne =>
        rcases carries_enqueue.mp hcar with hcar | ⟨_, hf⟩
        · exact hl.unposted fd' pipe' index hfd' hp hcar
        · exact hne (by simpa [hfiles] using hf)
    · intro pipe' hd
      obtain ⟨hlt, hclosed⟩ := hl.drained pipe' hd
      refine ⟨hlt, ?_⟩
      rintro (hw | ⟨index, hle, hcar⟩ | hcopy)
      · exact hclosed (.inl hw)
      · rcases carries_enqueue.mp hcar with hcar | ⟨_, hf⟩
        · exact hclosed (.inr (.inl ⟨index, hle, hcar⟩))
        · have heq : pipe' = pipe := by simpa [hfiles] using hf
          exact hclosed (heq ▸ hopen)
      · exact hclosed (.inr (.inr hcopy))
    · exact hl.sees
    · exact hl.spare
    · exact fun fd' barrier pipe' hb hf hk => hl.strange fd' barrier pipe' hb hf (knows_post hk)
  · intro j hj
    apply (hc.each j).enqueue
    intro pipe' hf
    have heq : pipe' = pipe := by simpa [hfiles] using hf
    subst heq
    exact ⟨hopen, (hc.apart i j hj.symm).pipes _ hknows⟩
  · intro j hj
    exact ⟨(hc.apart i j hj.symm).own, fun pipe' hk => (hc.apart i j hj.symm).pipes pipe' (knows_post hk)⟩
  · apply hc.shared.enqueue
    intro pipe' hf
    have heq : pipe' = pipe := by simpa [hfiles] using hf
    subst heq
    exact ⟨hl.bound _ hknows, hfiles, fun index => hl.unposted fd _ index hfd hpipe⟩
  · intro fd' pipe' hfd'
    by_cases hown : (hs i).own fd' = some (.pipeWrite pipe')
    · exact .inl hown
    · exact .inr ⟨hfd', hown⟩

end Enqueue

/-! The process honours the contract for each of its threads. -/

def eventsAfter (h : Holding) : (op : Sys) → op.Reply → Option Nat
  | .poll _ _ _, .ok events => some events
  | _, _ => h.events

structure Follows (k k' : Kernel) (h h' : Holding) (op : Sys) (reply : op.Reply) : Prop where
  sees : h'.sees = h.sees
  events : h'.events = eventsAfter h op reply
  sent : k'.sent = k.sent ∧ h'.mark = h.mark ∨
    ∃ message, k'.sent = k.sent ++ [message] ∧ h'.mark = some k.sent.length

theorem Coherent.fresh (hc : Coherent k m held hs) (i : ι) {fd : Nat} (hfd : k.Free fd) :
    k.fileAt fd = none ∧ (hs i).Fresh fd := by
  have hnone : k.fileAt fd = none := by simp [Kernel.fileAt, hfd.2]
  exact ⟨hnone, Int.natCast_nonneg fd, by exact_mod_cast hfd.1, hc.own_none hnone i⟩

theorem Coherent.observe [DecidableEq ι] (hc : Coherent k m held hs) (i : ι) {fd : Fd} {events : Nat}
    (hpoll : ∀ pipe, k.fileAt fd = some (.pipeRead pipe) → events ≠ 0 → ¬ WriteEndOpen k m pipe) :
    Coherent k m held (Function.update hs i ((hs i).observe fd events)) := by
  have hl := hc.each i
  apply hc.forget i
  · exact ⟨fun _ _ hfd => hfd, fun _ _ hp => hp⟩
  · refine ⟨hl.own, hl.bound, hl.posted, hl.unposted, ?_, hl.sees, hl.spare, hl.strange⟩
    rintro pipe (hd | ⟨hevents, hfd | hfd⟩)
    · exact hl.drained pipe hd
    · exact ⟨hl.bound pipe (.inl ⟨fd, hfd⟩), hpoll pipe (hl.own _ _ hfd) hevents⟩
    · obtain ⟨hfile, barrier, hb⟩ := hl.sees _ _ hfd
      obtain ⟨index, pipe', _, hfile', hbrings⟩ := hc.shared.waits fd barrier hb
      have heq : pipe = pipe' := by
        rw [hfile, Option.some.injEq, File.pipeRead.injEq] at hfile'
        exact hfile'
      subst heq
      exact ⟨(hc.shared.carried index pipe hbrings.carries).1, hpoll pipe hfile hevents⟩
  · exact fun _ _ hfd => hfd

theorem Coherent.answers [DecidableEq ι] (hc : Coherent k m held hs) (i : ι) (c : Choice) {op : Sys}
    (hop : (hs i).permits False op) (hpoll : PollRule k m op (k.perform c op).1) :
    ∃ h', (hs i).answers op (k.perform c op).1 h' ∧
      Coherent (k.perform c op).2 m held (Function.update hs i h') ∧
      Follows k (k.perform c op).2 (hs i) h' op (k.perform c op).1 := by
  have hsame : Coherent k m held (Function.update hs i (hs i)) := by
    rw [Function.update_eq_self]
    exact hc
  cases op with
  | getenv name => exact ⟨hs i, rfl, hsame, rfl, rfl, .inl ⟨rfl, rfl⟩⟩
  | getpid => exact ⟨hs i, rfl, hsame, rfl, rfl, .inl ⟨rfl, rfl⟩⟩
  | monotonicUs =>
    rcases k.perform_monotonicUs c with ⟨e, hr⟩ | hr
    · rw [hr]
      exact ⟨hs i, rfl, hsame, rfl, rfl, .inl ⟨rfl, rfl⟩⟩
    · rw [hr]
      exact ⟨hs i, rfl, hsame, rfl, rfl, .inl ⟨rfl, rfl⟩⟩
  | socket =>
    rcases k.perform_socket c with ⟨e, hr⟩ | ⟨hfree, hr⟩
    · rw [hr]
      exact ⟨hs i, rfl, hsame, rfl, rfl, .inl ⟨rfl, rfl⟩⟩
    · rw [hr]
      obtain ⟨hnone, hfresh⟩ := hc.fresh i hfree
      refine ⟨_, ⟨hfresh, rfl⟩, hc.install i hnone ?_, rfl, rfl, .inl ⟨rfl, rfl⟩⟩
      rintro pipe (hpipe | hpipe)
      · cases hpipe
      · cases hpipe
  | pipe =>
    rcases k.perform_pipe c with ⟨e, hr⟩ | ⟨⟨hread, hwrite, hdistinct⟩, hr⟩
    · rw [hr]
      exact ⟨hs i, rfl, hsame, rfl, rfl, .inl ⟨rfl, rfl⟩⟩
    · rw [hr]
      obtain ⟨hrnone, hrfresh⟩ := hc.fresh i hread
      obtain ⟨hwnone, hwfresh⟩ := hc.fresh i hwrite
      have hne : (c.fd : Fd) ≠ c.fd' := by exact_mod_cast hdistinct
      have hposted : (hs i).posted k.pipes = none := by
        cases hp : (hs i).posted k.pipes with
        | none => rfl
        | some index => exact absurd ((hc.each i).bound _ (.inr (.inr ⟨index, hp⟩))) (by omega)
      exact ⟨_, ⟨hrfresh, hwfresh, hne, k.pipes, hposted, rfl⟩, hc.openPipe i hrnone hwnone hne,
        rfl, rfl, .inl ⟨rfl, rfl⟩⟩
  | close fd =>
    obtain ⟨file, hfile⟩ := Option.ne_none_iff_exists'.mp (show (hs i).own fd ≠ none from hop)
    simp only [Kernel.perform, (hc.each i).own fd file hfile]
    exact ⟨_, ⟨rfl, rfl⟩, hc.close i hfile, rfl, rfl, .inl ⟨rfl, rfl⟩⟩
  | poll fd mask timeoutMs =>
    rcases k.perform_poll c fd mask timeoutMs with ⟨e, hr⟩ | hr
    · rw [hr]
      exact ⟨hs i, rfl, hsame, rfl, rfl, .inl ⟨rfl, rfl⟩⟩
    · rw [hr] at hpoll ⊢
      exact ⟨_, rfl, hc.observe i fun pipe hfile => (hpoll pipe hfile).mp, rfl, rfl, .inl ⟨rfl, rfl⟩⟩
  | sendto fd peer data =>
    rcases k.perform_sendto c fd peer data with ⟨e, hr⟩ | ⟨n, hr⟩
    · rw [hr]
      exact ⟨hs i, rfl, hsame, rfl, rfl, .inl ⟨rfl, rfl⟩⟩
    · rw [hr]
      exact ⟨_, ⟨_, rfl⟩, hc.postPlain i rfl, rfl, rfl, .inr ⟨_, rfl, rfl⟩⟩
  | sendmsg fd peer data fds =>
    rcases k.perform_sendmsg c fd peer data fds with ⟨e, hr⟩ | ⟨n, files, hfiles, hr⟩
    · rw [hr]
      exact ⟨hs i, rfl, hsame, rfl, rfl, .inl ⟨rfl, rfl⟩⟩
    · rw [hr]
      rcases hop.2 with rfl | hlent | ⟨w, pipe, rfl, _, _, hw, hposted⟩
      · cases hfiles
        exact ⟨_, ⟨_, rfl⟩, hc.postPlain i rfl, rfl, rfl, .inr ⟨_, rfl, rfl⟩⟩
      · exact hlent.elim
      · have hbrought : files = [.pipeWrite pipe] := by
          simpa [(hc.each i).own w _ hw, eq_comm] using hfiles
        exact ⟨_, ⟨_, rfl⟩, hc.postWriteEnd i hw hposted hbrought, rfl, rfl, .inr ⟨_, rfl, rfl⟩⟩
  | _ => exact hop.elim

/-! The manager, and the read ends the callers hold. -/

/-- The manager is between two datagrams, or in the middle of one. -/
structure InQueue (k : Kernel) (m : Manager) : Prop where
  taken : m.taken ≤ k.sent.length
  progress : m.processed = m.taken ∨
    m.processed + 1 = m.taken ∧ ∀ file, Carries k m.processed file → file ∈ m.copies
  copies : ∀ file ∈ m.copies, ∃ index, index + 1 = m.taken ∧ Carries k index file

theorem InQueue.of_sent (hq : InQueue k m) (hsent : k'.sent = k.sent) : InQueue k' m :=
  ⟨hsent ▸ hq.taken, by simpa [Carries, hsent] using hq.progress,
    by simpa [Carries, hsent] using hq.copies⟩

theorem InQueue.enqueue (hq : InQueue k m) (message : Message) : InQueue (enqueue k message) m where
  taken := by
    have hlen : (Barrier.enqueue k message).sent.length = k.sent.length + 1 := by
      simp [Barrier.enqueue]
    have := hq.taken
    omega
  progress := by
    rcases hq.progress with hdone | ⟨hnext, hall⟩
    · exact .inl hdone
    · refine .inr ⟨hnext, fun file hcar => ?_⟩
      rcases carries_enqueue.mp hcar with hcar | ⟨hlen, _⟩
      · exact hall file hcar
      · have := hq.taken
        omega
  copies file hf := by
    obtain ⟨index, hindex, hcar⟩ := hq.copies file hf
    exact ⟨index, hindex, carries_enqueue.mpr (.inl hcar)⟩

theorem InQueue.processed_of_closed {index pipe : Nat} (hq : InQueue k m)
    (hbrings : Brings k index pipe) (hclosed : ¬ WriteEndOpen k m pipe) : index < m.processed := by
  have htaken : index < m.taken := by
    by_contra hge
    exact hclosed (.inr (.inl ⟨index, by omega, hbrings.carries⟩))
  rcases hq.progress with hdone | ⟨hnext, hall⟩
  · omega
  · by_contra hge
    have heq : index = m.processed := by omega
    subst heq
    exact hclosed (.inr (.inr (hall _ hbrings.carries)))

/-- When the manager is finished with a barrier and no thread has the write end,
no write end is open. -/
theorem InQueue.closed_of_finished {index pipe : Nat} (hq : InQueue k m) (hsh : Shared k held)
    (hbrings : Brings k index pipe) (hfinished : m.Finished index)
    (htable : ∀ fd, k.fileAt fd ≠ some (.pipeWrite pipe)) : ¬ WriteEndOpen k m pipe := by
  rintro (⟨fd, hfd⟩ | ⟨index', hle, hcar⟩ | hcopy)
  · exact htable fd hfd
  · have heq := hsh.once _ _ pipe hcar hbrings.carries
    rcases hfinished with hlt | ⟨hlt, _⟩
    · omega
    · omega
  · obtain ⟨index', hindex, hcar⟩ := hq.copies _ hcopy
    have heq := hsh.once _ _ pipe hcar hbrings.carries
    rcases hfinished with hlt | ⟨_, _, hnil⟩
    · omega
    · rw [hnil] at hcopy
      cases hcopy

theorem Coherent.manager (hc : Coherent k m held hs)
    (hopen : ∀ pipe, WriteEndOpen k m' pipe → WriteEndOpen k m pipe) : Coherent k m' held hs where
  each i := by
    apply (hc.each i).frame
    · exact fun _ _ => rfl
    · exact le_rfl
    · exact fun _ _ hb => hb
    · exact fun _ _ _ hcar => hcar
    · exact fun pipe _ => hopen pipe
  apart := hc.apart
  shared := hc.shared
  writes := hc.writes

theorem Coherent.handOut (hc : Coherent k m held hs) {fd : Fd} {index pipe : Nat}
    (hfile : k.fileAt fd = some (.pipeRead pipe)) (hbrings : Brings k index pipe)
    (hown : ∀ i, (hs i).own fd = none) (hknows : ∀ i, ¬ Knows (hs i) pipe)
    (hnew : ∀ barrier, (fd, barrier) ∉ held) : Coherent k m ((fd, some index) :: held) hs where
  each i := by
    have hl := hc.each i
    refine ⟨hl.own, hl.bound, hl.posted, hl.unposted, hl.drained, ?_, ?_, ?_⟩
    · intro fd' file hfd'
      obtain ⟨hf, barrier, hb⟩ := hl.sees fd' file hfd'
      exact ⟨hf, barrier, List.mem_cons_of_mem _ hb⟩
    · intro fd' barrier hb
      rcases List.mem_cons.mp hb with heq | hb
      · cases heq
        exact hown i
      · exact hl.spare fd' barrier hb
    · intro fd' barrier pipe' hb hf
      rcases List.mem_cons.mp hb with heq | hb
      · cases heq
        rw [hfile, Option.some.injEq, File.pipeRead.injEq] at hf
        exact hf ▸ hknows i
      · exact hl.strange fd' barrier pipe' hb hf
  apart := hc.apart
  shared := by
    refine ⟨fun fd' barrier hb => ?_, hc.shared.carried, hc.shared.once, ?_⟩
    · rcases List.mem_cons.mp hb with heq | hb
      · cases heq
        exact ⟨index, pipe, rfl, hfile, hbrings⟩
      · exact hc.shared.waits fd' barrier hb
    · rw [List.map_cons, List.nodup_cons]
      refine ⟨fun hmem => ?_, hc.shared.nodup⟩
      obtain ⟨⟨fd', barrier⟩, hb, heq⟩ := List.mem_map.mp hmem
      cases heq
      exact hnew barrier hb
  writes := hc.writes

theorem Shared.barrier_unique (hsh : Shared k held) {fd : Fd} {b b' : Option Nat}
    (hb : (fd, b) ∈ held) (hb' : (fd, b') ∈ held) : b = b' :=
  congrArg Prod.snd (List.inj_on_of_nodup_map hsh.nodup hb hb' rfl)

theorem Coherent.release (hc : Coherent k m held hs) {fd : Fd} {barrier : Option Nat}
    (hheld : (fd, barrier) ∈ held) (hsees : ∀ i, (hs i).sees fd = none)
    {closes : List (Option File)} :
    Coherent { k.remove fd with closes := closes } m (held.erase (fd, barrier)) hs := by
  have hfile : ∀ fd', fd' ≠ fd → { k.remove fd with closes := closes }.fileAt fd' = k.fileAt fd' :=
    fun fd' hne => (k.fileAt_remove fd fd').trans (if_neg hne)
  have hgone : { k.remove fd with closes := closes }.fileAt fd = none :=
    (k.fileAt_remove fd fd).trans (if_pos rfl)
  have hrest : ∀ fd' b, (fd', b) ∈ held.erase (fd, barrier) → (fd', b) ∈ held ∧ fd' ≠ fd := by
    intro fd' b hb
    have hnodup : held.Nodup := hc.shared.nodup.of_map
    obtain ⟨hne, hmem⟩ := (hnodup.mem_erase_iff).mp hb
    refine ⟨hmem, ?_⟩
    rintro rfl
    exact hne (by rw [hc.shared.barrier_unique hmem hheld])
  have hopen : ∀ pipe, WriteEndOpen { k.remove fd with closes := closes } m pipe →
      WriteEndOpen k m pipe := by
    rintro pipe (⟨fd', hfd'⟩ | hw)
    · by_cases hne : fd' = fd
      · subst hne
        rw [hgone] at hfd'
        cases hfd'
      · exact .inl ⟨fd', (hfile fd' hne).symm.trans hfd'⟩
    · exact .inr hw
  refine ⟨fun i => ?_, hc.apart, ?_, fun fd' pipe hfd' => ?_⟩
  · have hl := hc.each i
    have hless : Local k m (held.erase (fd, barrier)) (hs i) := by
      refine ⟨hl.own, hl.bound, hl.posted, hl.unposted, hl.drained, ?_, ?_, ?_⟩
      · intro fd' file hfd'
        obtain ⟨hf, b, hb⟩ := hl.sees fd' file hfd'
        refine ⟨hf, b, (List.mem_erase_of_ne ?_).mpr hb⟩
        rintro heq
        cases heq
        rw [hsees i] at hfd'
        cases hfd'
      · exact fun fd' b hb => hl.spare fd' b (hrest fd' b hb).1
      · exact fun fd' b pipe hb => hl.strange fd' b pipe (hrest fd' b hb).1
    apply hless.frame
    · intro fd' hused
      apply hfile
      rintro rfl
      rcases hused with hown | ⟨b, hb⟩
      · exact hown (hl.spare _ _ hheld)
      · exact (hrest _ b hb).2 rfl
    · exact le_rfl
    · exact fun _ _ hb => hb
    · exact fun _ _ _ hcar => hcar
    · exact fun pipe _ => hopen pipe
  · refine ⟨fun fd' b hb => ?_, hc.shared.carried, hc.shared.once, ?_⟩
    · obtain ⟨index, pipe, hbarrier, hf, hbrings⟩ := hc.shared.waits fd' b (hrest fd' b hb).1
      exact ⟨index, pipe, hbarrier, (hfile fd' (hrest fd' b hb).2).trans hf, hbrings⟩
    · exact hc.shared.nodup.sublist ((List.erase_sublist ..).map Prod.fst)
  · by_cases hne : fd' = fd
    · subst hne
      rw [hgone] at hfd'
      cases hfd'
    · exact hc.writes fd' pipe ((hfile fd' hne).symm.trans hfd')

end Mpsystemd.Barrier
