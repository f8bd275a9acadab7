import Mpsystemd.ActivationNames
import Mpsystemd.Testbed

/-! What is stored with `fdstore`, received and handed on with
`install_listen_fds`, and what comes back. -/

namespace Mpsystemd

open Struct (Machine)

variable {rt : Runtime} {m : Machine} {l : FakeNotifyListener} {path : Bytes}

/-- What notifications have told the address. -/
def Testbed.toldTo (t : Testbed) (path : Bytes) : List Notice := t.told.filter (·.notifier.sunPath = some path)

/-- A store under a name, and the datagram it came as. -/
structure StoredSet where
  notice : Notice
  fds : FdsArg
  name : Str
  poll : Option Bool
  datagram : Datagram

namespace StoredSet

/-- The datagram is in hand, it was received whole and its descriptors have not been
closed. -/
structure InHand (t : Testbed) (path : Bytes) (bufsize : Int) (s : StoredSet) : Prop where
  stores : s.notice.notification = .fdstore s.fds (some s.name) s.poll
  place : ∃ j : Nat, (t.toldTo path)[j]? = some s.notice ∧ t.hand[j]? = some s.datagram
  whole : s.datagram.fds.length = s.fds.toList.length
  uncut : (s.datagram.data.length : Int) < bufsize

end StoredSet

theorem relays_toldTo {told : List Notice} {messages : List Message}
    (h : List.Forall₂ (Notice.Relays rt) told messages) (path : Bytes) :
    List.Forall₂ (Notice.Relays rt) (told.filter (·.notifier.sunPath = some path))
      (messages.filter (·.peer = path)) := by
  refine List.rel_filter (fun notice message hrelays => ?_) h
  obtain ⟨_, hpath, hrelays⟩ := hrelays.reads
  show decide _ = true ↔ decide _ = true
  rw [hpath, ← hrelays.peer, decide_eq_true_iff, decide_eq_true_iff, Option.some.injEq]

theorem body_fdstore {fds : FdsArg} {name : Str} {poll : Option Bool} {pid : Int} {now : Nat} {data : Bytes}
    (h : (Notification.fdstore fds (some name) poll).body rt pid now = .ok data) :
    fds.toList ≠ [] ∧ checkFdname name = .ok name ∧ Encodable name := by
  obtain ⟨⟨states, fields⟩, hargs, hbuild⟩ := Fallible.bind_eq_ok.mp h
  rw [Notification.arguments] at hargs
  split at hargs
  · cases hargs
  · next hne =>
    obtain ⟨accepted, haccepted, hargs⟩ := Fallible.bind_eq_ok.mp hargs
    obtain ⟨checked, hchecked, hsome⟩ := Fallible.bind_eq_ok.mp haccepted
    cases hsome
    cases hargs
    obtain ⟨rfl, -⟩ := checkFdname_ok hchecked
    refine ⟨hne, hchecked, (storePayload_isOk_iff rt fun text htext => ?_).mp ⟨data, hbuild⟩ _ rfl⟩
    cases htext
    exact ⟨_, hchecked⟩

namespace StoredSet

/-- What the datagram in hand is: the store that was told, with its files. -/
structure Whole (rt : Runtime) (k : Kernel) (s : StoredSet) : Prop where
  accepted : checkFdname s.name = .ok s.name
  encodable : Encodable s.name
  reads : Reads s.datagram.data (storeAssignments (some s.name) s.poll)
  files : ∃ files, s.notice.Attached rt files ∧
    List.Forall₂ (fun fd file => k.fileAt fd = some file) s.datagram.fds files

variable {base : Kernel} {index : Nat} {earlier : List Message} {t : Testbed} {s : StoredSet}

theorem InHand.of_inv (h : s.InHand t path l.bufsize) (hinv : t.Inv rt m l path base index earlier) :
    s.Whole rt t.kernel := by
  obtain ⟨messages, hr⟩ := hinv.relayed
  obtain ⟨j, htold, hhand⟩ := h.place
  obtain ⟨hjhand, hgetHand⟩ := List.getElem?_eq_some_iff.mp hhand
  obtain ⟨hjtold, hgetTold⟩ := List.getElem?_eq_some_iff.mp htold
  have hjreceived : j < t.received.length := hinv.intact.length_eq ▸ hjhand
  have hnotices := relays_toldTo hr.relays path
  have hjmessages : j < (messages.filter (·.peer = path)).length := hnotices.length_eq ▸ hjtold
  have hrelays := hnotices.get hjtold hjmessages
  have hdelivered := hr.delivered.get (by rw [List.length_take]; omega) hjreceived
  have hasReceived := hinv.intact.get hjhand hjreceived
  simp only [List.get_eq_getElem, List.getElem_take] at hrelays hdelivered hasReceived
  rw [hgetHand] at hasReceived
  rw [show (t.told.filter (·.notifier.sunPath = some path))[j] = s.notice from hgetTold] at hrelays
  generalize (messages.filter (·.peer = path))[j] = message at hrelays hdelivered
  generalize t.received[j] = receipt at hdelivered hasReceived
  obtain ⟨_, -, htelling⟩ := hrelays.reads
  obtain ⟨pairs, hpairs, hreads⟩ := htelling.reads
  have hbody := htelling.data
  have hlength := htelling.files
  rw [h.stores] at hbody hpairs hlength
  cases hpairs
  obtain ⟨hne, haccepted, hencodable⟩ := body_fdstore hbody
  have hopen : s.datagram.fds ≠ [] := by
    intro hnil
    have hwhole := h.whole
    rw [hnil, eq_comm, List.length_nil, List.length_eq_zero_iff] at hwhole
    exact hne hwhole
  obtain ⟨heq, hfiles⟩ := hasReceived.resolve_left hopen
  have hdata : s.datagram.data = message.data := by
    have huncut := h.uncut
    rw [heq, hdelivered.data, List.length_take] at huncut
    rw [heq, hdelivered.data, List.take_of_length_le (by omega)]
  have hall : message.files.take receipt.1.fds.length = message.files := by
    refine List.take_of_length_le ?_
    rw [hlength, ← heq, h.whole]
    rfl
  have hdeliveredFiles := hdelivered.files
  rw [hall, ← heq] at hdeliveredFiles
  refine ⟨haccepted, hencodable, hdata ▸ hreads, message.files, hrelays.files, ?_⟩
  exact ((List.forall₂_and_left _ _).mpr ⟨hfiles, hdeliveredFiles⟩).imp
    fun fd file ⟨hsame, hfile⟩ => hsame.trans hfile

/-! The sets, handed on together. -/

def fdsOf (stored : List StoredSet) : List Fd := stored.flatMap (·.datagram.fds)

def namesOf (stored : List StoredSet) : List Str :=
  stored.flatMap fun s => List.replicate s.datagram.fds.length s.name

theorem length_namesOf (stored : List StoredSet) : (namesOf stored).length = (fdsOf stored).length := by
  simp [namesOf, fdsOf, List.length_flatMap]

theorem mem_namesOf {stored : List StoredSet} {name : Str} (h : name ∈ namesOf stored) :
    ∃ s ∈ stored, s.name = name := by
  obtain ⟨s, hs, hname⟩ := List.mem_flatMap.mp h
  exact ⟨s, hs, (List.mem_replicate.mp hname).2.symm⟩

theorem files_of_whole {k : Kernel} {stored : List StoredSet} (h : ∀ s ∈ stored, s.Whole rt k) :
    ∃ files : List (List File), List.Forall₂ (fun s files => s.notice.Attached rt files) stored files ∧
      List.Forall₂ (fun fd file => k.fileAt fd = some file) (fdsOf stored) files.flatten := by
  induction stored with
  | nil => exact ⟨[], .nil, .nil⟩
  | cons s stored ih =>
    obtain ⟨hs, hrest⟩ := List.forall_mem_cons.mp h
    obtain ⟨files, hattached, hfiles⟩ := hs.files
    obtain ⟨rest, hattachedRest, hfilesRest⟩ := ih hrest
    exact ⟨files :: rest, .cons hattached hattachedRest, List.rel_append hfiles hfilesRest⟩

theorem accepted_names {k : Kernel} {stored : List StoredSet} (h : ∀ s ∈ stored, s.Whole rt k) :
    ∀ name ∈ namesOf stored, checkFdname name = .ok name := by
  intro name hname
  obtain ⟨s, hs, rfl⟩ := mem_namesOf hname
  exact (h s hs).accepted

theorem environText_names {k : Kernel} {stored : List StoredSet} (h : ∀ s ∈ stored, s.Whole rt k) :
    environText rt (Activation.joinNames (namesOf stored)) = .ok (Activation.joinNames (namesOf stored)) := by
  have hencodable : ∀ name ∈ namesOf stored, Encodable name := by
    intro name hname
    obtain ⟨s, hs, rfl⟩ := mem_namesOf hname
    exact (h s hs).encodable
  exact Activation.environText_joinNames (accepted_names h) (.inr hencodable)

/-- What the world has after the sets were handed on: their files from the first
descriptor on, and for the readers their names. -/
structure HandedOn (rt : Runtime) (stored : List StoredSet) (files : List File) (w : World) : Prop where
  files : ∀ (i : Nat) (file : File), files[i]? = some file → w.kernel.fileAt (listenFdsStart + i) = some file
  named : ∃ mapping, Activation.Partitions (namesOf stored) mapping ∧
    ∀ (σ : Type) (s : σ), Activation.Reads rt s w (fdsOf stored).length (.ok (namesOf stored)) (.ok mapping)

theorem handedOn_of_whole {k k₂ : Kernel} {w : World} {stored : List StoredSet} {files : List File}
    (h : ∀ s ∈ stored, s.Whole rt k)
    (hfiles : List.Forall₂ (fun fd file => k.fileAt fd = some file) (fdsOf stored) files)
    (hpid : Activation.ReadsBack rt k.pid) (hcount : Activation.ReadsBack rt (fdsOf stored).length)
    (hassigned : Assigned listenFdsStart (fdsOf stored) k k₂)
    (hpublished : Published rt (fdsOf stored).length (some (namesOf stored)) k₂ w.kernel) :
    HandedOn rt stored files w where
  files i file hfile := by
    obtain ⟨hi, hget⟩ := List.getElem?_eq_some_iff.mp hfile
    have hfd : i < (fdsOf stored).length := hfiles.length_eq ▸ hi
    have hopen := hfiles.get hfd hi
    rw [List.get_eq_getElem, List.get_eq_getElem, hget] at hopen
    have hsome : k.fileAt ((fdsOf stored)[i]) ≠ none := by simp [hopen]
    rw [Kernel.fileAt, hpublished.table, hassigned.inside i hfd hsome, hopen]
    rfl
  named := by
    refine ⟨_, Activation.partitions_collect (namesOf stored),
      fun σ s => Activation.reads_of_answers fun cloexec => ?_⟩
    obtain ⟨hfds, hanswer⟩ := Activation.installed_answers (length_namesOf stored) (accepted_names h)
      (environText_names h) (hassigned.pid ▸ hpid) hcount hassigned hpublished cloexec
    refine ⟨hfds, hanswer, ?_⟩
    rw [Activation.withNamesAnswer, hanswer]
    rfl

end StoredSet

/-- What is stored under names, at any time and by any notifier or module level
function, and received whole by a listener with room for bytes or descriptors, is
read in the datagrams that came and comes back when they are handed on together: the
readers have each name's descriptors, and these the files that were stored. -/
theorem stored_comes_back (rt : Runtime) (m : Machine) {urandom : Bytes} {address : Option StrOrBytes}
    {maxFds bufsize : Int} {w w' : World} {l : FakeNotifyListener}
    (hnew : (FakeNotifyListener.new urandom address maxFds bufsize).run () w = ((.ok l, ()), w'))
    (hsize : bufsize ≠ 0 ∨ maxFds ≠ 0) {notifiers : Nat → Notifier}
    (hnotifiers : ∀ i, ∃ address, Notifier.ofAddress address = .ok (notifiers i))
    (events : List (TestEvent × (Nat → Choice))) {t : Testbed}
    (ht : t = events.foldl (Testbed.step rt m) (.start w'.kernel l notifiers)) {path : Bytes}
    (hpath : encodeUnixAddress l.address = .ok path) {stored : List StoredSet}
    (hstored : ∀ s ∈ stored, s.InHand t path l.bufsize) (hpid : Activation.ReadsBack rt t.kernel.pid)
    (hcount : Activation.ReadsBack rt (StoredSet.fdsOf stored).length) :
    (∀ s ∈ stored, Reads s.datagram.data (storeAssignments (some s.name) s.poll)) ∧
      ∃ files, List.Forall₂ (fun s files => s.notice.Attached rt files) stored files ∧
        ∀ (σ : Type) (s : σ) (choices : Nat → Choice),
          let installs : Py σ (List Fd) :=
            installListenFds rt (StoredSet.fdsOf stored) (some (StoredSet.namesOf stored)) listenFdsStart
          ((∀ call ∈ installs.trace s ⟨t.kernel, choices⟩, call.MoveSucceeds ∧ call.SetenvSucceeds) →
            ∃ fds, (installs.run s ⟨t.kernel, choices⟩).1.1 = .ok fds) ∧
          ∀ fds s₁ w₁, installs.run s ⟨t.kernel, choices⟩ = ((.ok fds, s₁), w₁) →
            StoredSet.HandedOn rt stored files.flatten w₁ := by
  obtain ⟨_, hpath', hinv⟩ := @Testbed.inv_run rt m l _ _ _ _ _ _ hnew hsize _ hnotifiers events
  cases hpath.symm.trans hpath'
  rw [← ht] at hinv
  have hwhole : ∀ s ∈ stored, s.Whole rt t.kernel := fun s hs => (hstored s hs).of_inv hinv
  obtain ⟨files, hattached, hfiles⟩ := StoredSet.files_of_whole hwhole
  refine ⟨fun s hs => (hwhole s hs).reads, files, hattached, fun σ s choices => ?_⟩
  intro installs
  have hnames : ∀ names ∈ some (StoredSet.namesOf stored), names.length = (StoredSet.fdsOf stored).length := by
    intro names hnames
    cases hnames
    exact StoredSet.length_namesOf stored
  have hpost := (records_installListenFds rt listenFdsStart s t.kernel hnames).run (w := ⟨t.kernel, choices⟩)
  rw [List.nil_append] at hpost
  change Method.outcome _ _ (installs.run s ⟨t.kernel, choices⟩).1
    ((installs.run s ⟨t.kernel, choices⟩).2.kernel, installs.trace s ⟨t.kernel, choices⟩) at hpost
  constructor
  · intro hcalls
    generalize installs.run s ⟨t.kernel, choices⟩ = after at hpost
    obtain ⟨⟨result, s₁⟩, w₁⟩ := after
    cases result with
    | ok fds => exact ⟨fds, rfl⟩
    | error e =>
      rcases hpost with ⟨call, hcall, hfails⟩ | ⟨fd, hfd, hneg⟩ |
        ⟨-, ⟨call, hcall, hfails⟩ | ⟨names, hsome, e', he'⟩⟩
      · exact absurd (hcalls call hcall).1 hfails
      · obtain ⟨stored, hs, hmem⟩ := List.mem_flatMap.mp hfd
        obtain ⟨j, -, hhand⟩ := (hstored stored hs).place
        have hheld := hinv.accounted.held fd .datagram ⟨stored.datagram, List.mem_of_getElem? hhand, hmem⟩
        exact absurd hheld.1 (not_le.mpr hneg)
      · exact absurd (hcalls call hcall).2 hfails
      · cases hsome
        cases (StoredSet.environText_names hwhole).symm.trans he'
  · intro fds s₁ w₁ hrun
    rw [hrun] at hpost
    obtain ⟨-, -, k₂, hassigned, hpublished⟩ := hpost
    exact StoredSet.handedOn_of_whole hwhole hfiles hpid hcount hassigned hpublished

namespace StoredSet

open FakeNotifyListener (defaultListener listening nineOpen notifyAddress wide)
open Testbed (atAddress atAddress_eq storingTwo)

def afterEvents (n : Nat) : Testbed :=
  (storingTwo.take n).foldl (Testbed.step (decimalRuntime false) wide)
    (.start listening.2.kernel defaultListener fun _ => atAddress)

def connection : StoredSet :=
  ⟨⟨atAddress, (afterEvents 1).kernel, .fdstore (.many [3, 4]) (some (str "conn")) none⟩, .many [3, 4], str "conn",
    none, ⟨bytes "FDNAME=conn\nFDSTORE=1\n", [0, 1]⟩⟩

theorem stored_comes_back_connection :
    ∃ files, connection.notice.Attached (decimalRuntime false) files ∧
      HandedOn (decimalRuntime false) [connection] files
        ((installListenFds (decimalRuntime false) [0, 1] (some [str "conn", str "conn"]) listenFdsStart).run ()
          ⟨(afterEvents 4).kernel, fun _ => ⟨none, 0, 0, 0, 0⟩⟩).2 := by
  have hnew : (FakeNotifyListener.new [] (some notifyAddress) 8 65536).run () nineOpen =
      ((.ok defaultListener, ()), listening.2) := rfl
  have hstored : ∀ s ∈ [connection], s.InHand (afterEvents 4) (0 :: bytes "notify") defaultListener.bufsize :=
    List.forall_mem_singleton.mpr ⟨rfl, ⟨1, rfl, rfl⟩, rfl, by decide⟩
  have hpid : Activation.ReadsBack (decimalRuntime false) (afterEvents 4).kernel.pid := by
    unfold Activation.ReadsBack
    decide
  have hcount : Activation.ReadsBack (decimalRuntime false) (fdsOf [connection]).length := by
    unfold Activation.ReadsBack
    decide
  obtain ⟨-, files, hattached, hback⟩ := stored_comes_back (decimalRuntime false) wide hnew (.inl (by decide))
    (fun _ => ⟨_, atAddress_eq⟩) (storingTwo.take 4) rfl rfl hstored hpid hcount
  cases hattached with
  | cons hfiles hnone =>
    cases hnone
    refine ⟨_, hfiles, ?_⟩
    have hreturned := (hback Unit () fun _ => ⟨none, 0, 0, 0, 0⟩).2 [3, 4] () _ rfl
    rwa [List.flatten_singleton] at hreturned

end StoredSet

end Mpsystemd
