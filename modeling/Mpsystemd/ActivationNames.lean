import Mpsystemd.Install
import Mpsystemd.Payload

/-! The readers of the `LISTEN_*` variables agree with one another, and with
`install_listen_fds`. -/

namespace Mpsystemd

variable {σ : Type}

namespace Activation

def positions (name : Str) (fd : Int) : List Str → List Int
  | [] => []
  | first :: names => if first = name then fd :: positions name (fd + 1) names else positions name (fd + 1) names

theorem mem_positions {name : Str} {fd fd' : Int} {names : List Str} :
    fd' ∈ positions name fd names ↔ ∃ i : Nat, fd' = fd + i ∧ names[i]? = some name := by
  induction names generalizing fd with
  | nil => simp [positions]
  | cons first names ih =>
    have hshift : (∃ i : Nat, fd' = fd + 1 + i ∧ names[i]? = some name) ↔
        ∃ i : Nat, fd' = fd + (i + 1 : Nat) ∧ (first :: names)[i + 1]? = some name := by
      refine exists_congr fun i => and_congr ?_ (by rw [List.getElem?_cons_succ])
      omega
    have hsplit : (∃ i : Nat, fd' = fd + i ∧ (first :: names)[i]? = some name) ↔
        fd' = fd ∧ first = name ∨ ∃ i : Nat, fd' = fd + 1 + i ∧ names[i]? = some name := by
      rw [hshift]
      constructor
      · rintro ⟨i, hfd, hname⟩
        cases i with
        | zero => exact .inl ⟨by omega, by simpa using hname⟩
        | succ i => exact .inr ⟨i, hfd, hname⟩
      · rintro (⟨rfl, rfl⟩ | ⟨i, hfd, hname⟩)
        · exact ⟨0, by omega, rfl⟩
        · exact ⟨i + 1, hfd, hname⟩
    rw [hsplit, ← ih, positions]
    split
    · next hname => simp [hname]
    · next hname => simp [hname]

theorem lt_of_mem_positions {name : Str} {fd fd' : Int} {names : List Str}
    (h : fd' ∈ positions name (fd + 1) names) : fd < fd' := by
  obtain ⟨i, rfl, _⟩ := mem_positions.mp h
  omega

theorem positions_ascending (name : Str) (fd : Int) (names : List Str) :
    (positions name fd names).Pairwise (· < ·) := by
  induction names generalizing fd with
  | nil => exact .nil
  | cons first names ih =>
    rw [positions]
    split
    · exact List.pairwise_cons.mpr ⟨fun _ => lt_of_mem_positions, ih _⟩
    · exact ih _

theorem get?_collect (mapping : Dict Str (List Fd)) (fd : Int) (names : List Str) (name : Str) :
    (collect mapping fd names).get? name =
      if positions name fd names = [] then mapping.get? name
      else some ((mapping.get? name).getD [] ++ positions name fd names) := by
  -- For any mapping that the descriptors before `fd` have made.
  induction names generalizing mapping fd with
  | nil => simp [collect, positions]
  | cons first names ih =>
    rw [collect, ih, positions, Dict.get?_set]
    by_cases hname : name = first
    · subst hname
      simp only [if_true]
      by_cases hrest : positions name (fd + 1) names = []
      · simp [hrest]
      · simp [hrest]
    · simp only [hname, Ne.symm hname, if_false]

/-- The mapping lists every descriptor under its own name, and under no other,
in ascending order. -/
structure Partitions (names : List Str) (mapping : Dict Str (List Fd)) : Prop where
  listed : ∀ (name : Str) (fd : Int), (∃ fds, mapping.get? name = some fds ∧ fd ∈ fds) ↔
    ∃ i : Nat, fd = listenFdsStart + i ∧ names[i]? = some name
  ascending : ∀ name fds, mapping.get? name = some fds → fds ≠ [] ∧ fds.Pairwise (· < ·)

theorem partitions_collect (names : List Str) : Partitions names (collect .empty listenFdsStart names) := by
  have hget : ∀ name, (collect .empty listenFdsStart names).get? name =
      if positions name listenFdsStart names = [] then none else some (positions name listenFdsStart names) := by
    intro name
    rw [get?_collect, Dict.get?_empty]
    rfl
  constructor
  · intro name fd
    rw [← mem_positions, hget]
    constructor
    · rintro ⟨fds, hfds, hfd⟩
      split at hfds
      · cases hfds
      · cases hfds
        exact hfd
    · intro hfd
      exact ⟨_, if_neg (List.ne_nil_of_mem hfd), hfd⟩
  · intro name fds hfds
    rw [hget] at hfds
    split at hfds
    · cases hfds
    · next hne =>
      cases hfds
      exact ⟨hne, positions_ascending name listenFdsStart names⟩

def Mismatch (n : Nat) (namesText : Option Str) : Prop :=
  0 < n ∧ ∃ text, namesText = some text ∧ text ≠ [] ∧ (text.splitOn fdnamesSeparator).length ≠ n

theorem namesFor_mismatch {n : Nat} {namesText : Option Str} (h : Mismatch n namesText) :
    ∃ args, namesFor n namesText = .error (.systemdError "%s lists %d names for %d descriptors" args) := by
  obtain ⟨_, text, rfl, htext, hlength⟩ := h
  have hlength' : ((text.splitOn fdnamesSeparator).length : Int) ≠ n := by exact_mod_cast hlength
  have hfilter : (some text).filter (· ≠ []) = some text := by simp [htext]
  refine ⟨[.text listenFdnamesEnv, .int (text.splitOn fdnamesSeparator).length, .int n], ?_⟩
  simp only [namesFor, hfilter, if_pos hlength']

theorem namesFor_match {n : Nat} {namesText : Option Str} (hn : 0 < n) (h : ¬ Mismatch n namesText) :
    ∃ names, namesFor n namesText = .ok names ∧ names.length = n ∧ [] ∉ names := by
  unfold namesFor
  split
  · refine ⟨_, rfl, by simp, ?_⟩
    intro hmem
    exact absurd (List.eq_of_mem_replicate hmem) (by decide)
  · next text hfilter =>
    obtain ⟨htext, hne⟩ := Option.filter_eq_some_iff.mp hfilter
    have hlength : ((text.splitOn fdnamesSeparator).length : Int) = n := by
      by_contra hlength
      exact h ⟨hn, text, htext, by simpa using hne, by exact_mod_cast hlength⟩
    refine ⟨_, if_neg (not_not.mpr hlength), by simpa using hlength, ?_⟩
    intro hmem
    obtain ⟨name, _, hname⟩ := List.mem_map.mp hmem
    split at hname
    · exact absurd hname (by decide)
    · next hne => exact hne hname

theorem markResult_of_open {rt : Runtime} {k : Kernel} (cloexec : Bool)
    (hopen : ∀ fd ∈ range listenFdsStart (listenFdsStart + listenCount rt k), k.fileAt fd ≠ none) :
    k.markResult (named rt cloexec k) = .ok () := by
  apply if_pos
  cases cloexec with
  | false => exact nofun
  | true => exact hopen

theorem readers_agree (rt : Runtime) (k : Kernel)
    (hopen : ∀ fd ∈ range listenFdsStart (listenFdsStart + listenCount rt k), k.fileAt fd ≠ none) :
    ∃ n : Nat, (∀ cloexec, fdsAnswer rt cloexec k = .ok n) ∧
      (Mismatch n (k.env listenFdnamesEnv) → ∃ args, ∀ cloexec,
        namesAnswer rt cloexec k = .error (.systemdError "%s lists %d names for %d descriptors" args) ∧
        withNamesAnswer rt cloexec k = .error (.systemdError "%s lists %d names for %d descriptors" args)) ∧
      (¬ Mismatch n (k.env listenFdnamesEnv) → ∃ names mapping, names.length = n ∧ [] ∉ names ∧
        Partitions names mapping ∧ ∀ cloexec,
          namesAnswer rt cloexec k = .ok names ∧ withNamesAnswer rt cloexec k = .ok mapping) := by
  have hcount : ((listenCount rt k).toNat : Int) = listenCount rt k := Int.toNat_of_nonneg (countIn_nonneg ..)
  generalize (listenCount rt k).toNat = n at hcount
  have hnames : ∀ cloexec, namesAnswer rt cloexec k =
      if n = 0 then .ok [] else namesFor n (k.env listenFdnamesEnv) := by
    intro cloexec
    rw [namesAnswer, markResult_of_open cloexec hopen, Fallible.ok_bind, ← hcount]
    simp only [Nat.cast_eq_zero]
    rfl
  refine ⟨n, fun cloexec => ?_, fun hmismatch => ?_, fun hmatch => ?_⟩
  · rw [fdsAnswer, markResult_of_open cloexec hopen, hcount]
    rfl
  · obtain ⟨args, hargs⟩ := namesFor_mismatch hmismatch
    have hne : n ≠ 0 := by have := hmismatch.1; omega
    refine ⟨args, fun cloexec => ?_⟩
    have hanswer := hnames cloexec
    rw [if_neg hne, hargs] at hanswer
    rw [withNamesAnswer, hanswer]
    exact ⟨rfl, rfl⟩
  · obtain ⟨names, hfor, hlength, hempty⟩ : ∃ names, (if n = 0 then .ok [] else
        namesFor n (k.env listenFdnamesEnv)) = .ok names ∧ names.length = n ∧ [] ∉ names := by
      by_cases hn : n = 0
      · exact ⟨[], if_pos hn, hn.symm, List.not_mem_nil⟩
      · rw [if_neg hn]
        exact namesFor_match (by omega) hmatch
    refine ⟨names, _, hlength, hempty, partitions_collect names, fun cloexec => ?_⟩
    have hanswer := hnames cloexec
    rw [hfor] at hanswer
    rw [withNamesAnswer, hanswer]
    exact ⟨rfl, rfl⟩

/-! What `install_listen_fds` leaves is read back. -/

def joinNames (names : List Str) : Str := [fdnamesSeparator].intercalate names

theorem joinNames_cons_ne_nil {name : Str} (hname : name ≠ []) (names : List Str) :
    joinNames (name :: names) ≠ [] := by
  intro hnil
  have hprefix : name <+: joinNames (name :: names) := by
    cases names with
    | nil => simp [joinNames]
    | cons name' names => simp [joinNames]
  rw [hnil] at hprefix
  exact hname (List.prefix_nil.mp hprefix)

theorem namesFor_join {names : List Str} (haccepted : ∀ name ∈ names, checkFdname name = .ok name)
    (hne : names ≠ []) : namesFor names.length (some (joinNames names)) = .ok names := by
  have hvalid := fun name hname => checkFdname_ok (haccepted name hname)
  have hsplit : (joinNames names).splitOn fdnamesSeparator = names := by
    apply List.splitOn_intercalate
    · exact fun name hname hmem => ((hvalid name hname).2.2 _ hmem).1 rfl
    · exact hne
  have htext : joinNames names ≠ [] := by
    cases names with
    | nil => exact absurd rfl hne
    | cons name names => exact joinNames_cons_ne_nil (hvalid name List.mem_cons_self).2.1 names
  have hfilter : (some (joinNames names)).filter (· ≠ []) = some (joinNames names) := by simp [htext]
  have hkeep : (names.map fun name => if name = [] then unnamed else name) = names := by
    have hsame : ∀ name ∈ names, (if name = [] then unnamed else name) = id name :=
      fun name hname => if_neg (hvalid name hname).2.1
    rw [List.map_congr_left hsame, List.map_id]
  simp only [namesFor, hfilter, hsplit, ne_eq, not_true_eq_false, if_false, hkeep]

/-- What `int` makes of a decimal text that the package writes. -/
def ReadsBack (rt : Runtime) (i : Int) : Prop := rt.parseInt (str (toString i)) = some i

theorem toString_ne_nil (i : Int) : str (toString i) ≠ [] := by
  have hlist : (toString i).toList ≠ [] := by
    cases i with
    | ofNat n =>
      show (Nat.repr n).toList ≠ []
      rw [Nat.toList_repr]
      exact Nat.toDigits_ne_nil
    | negSucc n =>
      show ("-" ++ Nat.repr (n + 1)).toList ≠ []
      simp
  exact fun h => hlist (List.map_eq_nil_iff.mp h)

theorem countIn_decimal {rt : Runtime} {pid : Int} {count : Nat} (hpid : ReadsBack rt pid)
    (hcount : ReadsBack rt count) :
    countIn rt pid (some (str (toString pid))) (some (str (toString (count : Int)))) = count := by
  have hfilter : ∀ i : Int, (some (str (toString i))).filter (· ≠ []) = some (str (toString i)) := by
    intro i
    rw [Option.filter_some, if_pos (decide_eq_true (toString_ne_nil i))]
  have hmax : max (count : Int) 0 = count := max_eq_left (by omega)
  simp only [countIn, hfilter, Option.bind_some, show rt.parseInt _ = _ from hpid,
    show rt.parseInt _ = _ from hcount, if_true, hmax]

theorem installed_answers {rt : Runtime} {fds : List Int} {names : List Str} {k k₂ k' : Kernel}
    (hlength : names.length = fds.length) (haccepted : ∀ name ∈ names, checkFdname name = .ok name)
    (htext : environText rt (joinNames names) = .ok (joinNames names))
    (hpid : ReadsBack rt k₂.pid) (hcount : ReadsBack rt fds.length)
    (hassigned : Assigned listenFdsStart fds k k₂) (hpublished : Published rt fds.length (some names) k₂ k')
    (cloexec : Bool) :
    fdsAnswer rt cloexec k' = .ok fds.length ∧ namesAnswer rt cloexec k' = .ok names := by
  have hlisten : listenCount rt k' = fds.length := by
    rw [listenCount, hpublished.pid, hpublished.pidText, hpublished.countText, countIn_decimal hpid hcount]
  have hopen : ∀ fd ∈ range listenFdsStart (listenFdsStart + listenCount rt k'), k'.fileAt fd ≠ none := by
    intro fd hfd
    obtain ⟨hlo, hhi⟩ := mem_range.mp hfd
    rw [Kernel.fileAt, hpublished.table]
    exact hassigned.opened fd hlo (hlisten ▸ hhi)
  have hmark := markResult_of_open cloexec hopen
  rw [fdsAnswer, namesAnswer, hmark, hlisten]
  refine ⟨rfl, ?_⟩
  obtain ⟨text, hkept, henv⟩ := hpublished.named names rfl
  obtain rfl : joinNames names = text := Except.ok.inj (htext.symm.trans hkept)
  rw [Fallible.ok_bind, henv, ← hlength]
  cases names with
  | nil => rfl
  | cons name names =>
    rw [if_neg (by simp only [List.length_cons, Nat.cast_succ]; omega)]
    exact namesFor_join haccepted (List.cons_ne_nil name names)

theorem mem_joinNames (names : List Str) :
    ∀ c ∈ joinNames names, c = fdnamesSeparator ∨ ∃ name ∈ names, c ∈ name := by
  induction names with
  | nil => exact nofun
  | cons name names ih =>
    intro c hc
    cases names with
    | nil => exact .inr ⟨name, List.mem_cons_self, by simpa [joinNames] using hc⟩
    | cons name' names =>
      rw [joinNames, List.intercalate_cons_cons, List.append_assoc, List.mem_append, List.mem_append] at hc
      rcases hc with hc | hc | hc
      · exact .inr ⟨name, List.mem_cons_self, hc⟩
      · exact .inl (List.mem_singleton.mp hc)
      · obtain hsep | ⟨other, hother, hc⟩ := ih c hc
        · exact .inl hsep
        · exact .inr ⟨other, List.mem_cons_of_mem _ hother, hc⟩

/-- Names that UTF-8 can encode come back from the environment, and on
MicroPython all that `check_fdname` accepts. -/
theorem environText_joinNames {rt : Runtime} {names : List Str}
    (haccepted : ∀ name ∈ names, checkFdname name = .ok name)
    (hkept : rt.micropython = true ∨ ∀ name ∈ names, Encodable name) :
    environText rt (joinNames names) = .ok (joinNames names) := by
  have hmem := mem_joinNames names
  have hnul : nul ∉ joinNames names := by
    intro hc
    rcases hmem nul hc with hsep | ⟨name, hname, hc⟩
    · exact absurd hsep (by decide)
    · have hvalid := (checkFdname_ok (haccepted name hname)).2.2 nul hc
      exact absurd hvalid.2.1 (by decide)
  rcases hkept with hmp | hencodable
  · exact environText_micropython hmp hnul
  · have hall : Encodable (joinNames names) := by
      rw [encodable_iff]
      intro c hc
      rcases hmem c hc with rfl | ⟨name, hname, hc⟩
      · rfl
      · exact encodable_iff.mp (hencodable name hname) c hc
    obtain ⟨b, hb⟩ := hall
    obtain ⟨chars, hchars⟩ := scalars_of_encodeUtf8 hb
    rw [hchars] at hnul ⊢
    exact environText_of_scalars rt fun hc => hnul (List.mem_map.mpr ⟨_, hc, rfl⟩)

end Activation

/-- What the three readers answer in the world, whatever their flags. -/
def Activation.Reads (rt : Runtime) (s : σ) (w : World) (n : Nat) (names : Except PyErr (List Str))
    (mapping : Except PyErr (Dict Str (List Fd))) : Prop :=
  ∀ unset cloexec, ((listenFds rt unset cloexec).run s w).1.1 = .ok (n : Int) ∧
    ((listenFdNames rt unset cloexec).run s w).1.1 = names ∧
    ((listenFdsWithNames rt unset cloexec).run s w).1.1 = mapping

theorem Activation.reads_of_answers {rt : Runtime} {s : σ} {w : World} {n : Nat}
    {names : Except PyErr (List Str)} {mapping : Except PyErr (Dict Str (List Fd))}
    (h : ∀ cloexec, fdsAnswer rt cloexec w.kernel = .ok n ∧ namesAnswer rt cloexec w.kernel = names ∧
      withNamesAnswer rt cloexec w.kernel = mapping) : Reads rt s w n names mapping := by
  intro unset cloexec
  obtain ⟨hfds, hnames, hmapping⟩ := h cloexec
  refine ⟨?_, ?_, ?_⟩
  · rw [(does_listenFds rt unset cloexec s w.kernel).run.1, hfds]
  · rw [(does_listenFdNames rt unset cloexec s w.kernel).run.1, hnames]
  · rw [(does_listenFdsWithNames rt unset cloexec s w.kernel).run.1, hmapping]

/-- The readers of the `LISTEN_*` variables agree on the number of descriptors
and on their names, and read back what `install_listen_fds` leaves when the
environment gives the names back as they are. -/
theorem activation_agrees (rt : Runtime) (s : σ) (w : World) :
    ((∀ fd ∈ range listenFdsStart (listenFdsStart + Activation.listenCount rt w.kernel),
        w.kernel.fileAt fd ≠ none) →
      ∃ n : Nat,
        (Activation.Mismatch n (w.kernel.env listenFdnamesEnv) → ∃ args, Activation.Reads rt s w n
          (.error (.systemdError "%s lists %d names for %d descriptors" args))
          (.error (.systemdError "%s lists %d names for %d descriptors" args))) ∧
        (¬ Activation.Mismatch n (w.kernel.env listenFdnamesEnv) → ∃ names mapping,
          names.length = n ∧ [] ∉ names ∧ Activation.Partitions names mapping ∧
            Activation.Reads rt s w n (.ok names) (.ok mapping))) ∧
    ∀ (fds : List Fd) (names : List Str), names.length = fds.length →
      (∀ name ∈ names, checkFdname name = .ok name) →
      environText rt (Activation.joinNames names) = .ok (Activation.joinNames names) →
      Activation.ReadsBack rt w.kernel.pid → Activation.ReadsBack rt fds.length →
      ∀ r s₁ w₁, (installListenFds rt fds (some names) listenFdsStart).run s w = ((.ok r, s₁), w₁) →
        ∃ mapping, Activation.Partitions names mapping ∧
          ∀ s' : σ, Activation.Reads rt s' w₁ fds.length (.ok names) (.ok mapping) := by
  constructor
  · intro hopen
    obtain ⟨n, hfds, hmismatch, hmatch⟩ := Activation.readers_agree rt w.kernel hopen
    refine ⟨n, fun h => ?_, fun h => ?_⟩
    · obtain ⟨args, hanswers⟩ := hmismatch h
      exact ⟨args, Activation.reads_of_answers fun cloexec => ⟨hfds cloexec, hanswers cloexec⟩⟩
    · obtain ⟨names, mapping, hlength, hempty, hpartitions, hanswers⟩ := hmatch h
      exact ⟨names, mapping, hlength, hempty, hpartitions,
        Activation.reads_of_answers fun cloexec => ⟨hfds cloexec, hanswers cloexec⟩⟩
  · intro fds names hlength haccepted htext hpid hcount r s₁ w₁ hrun
    have hnames : ∀ ns ∈ some names, ns.length = fds.length := by
      intro ns hns
      cases hns
      exact hlength
    have hpost := (records_installListenFds rt listenFdsStart s w.kernel hnames).run
    rw [hrun] at hpost
    obtain ⟨_, _, k₂, hassigned, hpublished⟩ := hpost
    refine ⟨_, Activation.partitions_collect names, fun s' => Activation.reads_of_answers fun cloexec => ?_⟩
    obtain ⟨hfds, hanswer⟩ := Activation.installed_answers hlength haccepted htext
      (hassigned.pid ▸ hpid) hcount hassigned hpublished cloexec
    refine ⟨hfds, hanswer, ?_⟩
    rw [Activation.withNamesAnswer, hanswer]
    rfl

def decimalRuntime (micropython : Bool) : Runtime :=
  { Runtime.unixPort with
    micropython
    parseInt := fun s =>
      if s ≠ [] ∧ ∀ c ∈ s, 48 ≤ c.ord ∧ c.ord ≤ 57 then some (s.foldl (fun n c => 10 * n + (c.ord - 48)) 0)
      else none }

theorem activation_agrees_on_two :
    ∃ mapping, Activation.Partitions [str "http", str "http"] mapping ∧
      Activation.Reads (decimalRuntime true) ()
        ((installListenFds (decimalRuntime true) [4, 3] (some [str "http", str "http"]) listenFdsStart).run ()
          twoOpen).2 2 (.ok [str "http", str "http"]) (.ok mapping) := by
  have hreads : ∀ i ∈ ([1, 2] : List Int), Activation.ReadsBack (decimalRuntime true) i := by
    simp only [List.forall_mem_cons]
    exact ⟨by unfold Activation.ReadsBack; decide, by unfold Activation.ReadsBack; decide, nofun⟩
  obtain ⟨mapping, hpartitions, hanswers⟩ := (activation_agrees (decimalRuntime true) () twoOpen).2 [4, 3]
    [str "http", str "http"] rfl (by decide) (by decide) (hreads 1 (by decide)) (hreads 2 (by decide)) _ _ _ rfl
  exact ⟨mapping, hpartitions, hanswers ()⟩

/-- On CPython two bytes that were escaped come back as the character they encode. -/
theorem activation_renames :
    checkFdname [.surrogate 0x4C3, .surrogate 0x4A9] = .ok [.surrogate 0x4C3, .surrogate 0x4A9] ∧
      ((installListenFds (decimalRuntime false) [4] (some [[.surrogate 0x4C3, .surrogate 0x4A9]])
        listenFdsStart).run () twoOpen).1.1 = .ok [3] ∧
      ((Activation.listenFdNames (decimalRuntime false) false true).run ()
        ((installListenFds (decimalRuntime false) [4] (some [[.surrogate 0x4C3, .surrogate 0x4A9]])
          listenFdsStart).run () twoOpen).2).1.1 = .ok [str "é"] ∧
      [str "é"] ≠ [[.surrogate 0x4C3, .surrogate 0x4A9]] := by
  exact ⟨by decide, by decide, by decide, by decide⟩

end Mpsystemd
