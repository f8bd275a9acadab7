import Mpsystemd.DescriptorStore
import Mpsystemd.Environment

/-! A notification outside systemd, where there is no address, against the same
one inside. -/

namespace Mpsystemd

/-- The notifications of a notifier. An integer argument is what `int` makes of
it, which may be an exception. -/
inductive Notification where
  | notify (states : List StrOrBytes) (fields : Dict Str Value)
  | ready (status : Option Value)
  | stopping (status : Option Value)
  | reloading (status : Option Value)
  | status (text : Value)
  | errno (value : Except PyErr Int)
  | mainPid (pid : Option (Except PyErr Int))
  | extendTimeout (usec : Except PyErr Int)
  | watchdogPing
  | watchdogTrigger
  | fdstore (fds : FdsArg) (name : Option Str) (poll : Option Bool)
  | fdstoreRemove (name : Str)

namespace Notification

def method (rt : Runtime) : Notification → Py Notifier Bool
  | notify states fields => Notifier.notify rt states fields
  | ready text => Notifier.ready rt text
  | stopping text => Notifier.stopping rt text
  | reloading text => Notifier.reloading rt text
  | status text => Notifier.status rt text
  | errno value => do Notifier.errno rt (← Method.lift value)
  | mainPid none => Notifier.mainPid rt none
  | mainPid (some pid) => do Notifier.mainPid rt (some (← Method.lift pid))
  | extendTimeout usec => do Notifier.extendTimeout rt (← Method.lift usec)
  | watchdogPing => Notifier.watchdogPing rt
  | watchdogTrigger => Notifier.watchdogTrigger rt
  | fdstore fds name poll => Notifier.fdstore rt fds name poll
  | fdstoreRemove name => Notifier.fdstoreRemove rt name

/-- The descriptors that go with the message. -/
def fds : Notification → List Fd
  | fdstore fds _ _ => fds.toList
  | _ => []

def reloadFields (now : Nat) (text : Option Value) : Dict Str Value :=
  keywords (("RELOADING", .int 1) :: ("MONOTONIC_USEC", .int now) :: keyword? "STATUS" text)

/-- The payload, for the process id 1 and the time 0 where the kernel's are sent. -/
def payload (rt : Runtime) : Notification → Except PyErr Bytes
  | notify states fields => buildPayload rt states fields
  | ready text => buildPayload rt [] (keywords (("READY", .int 1) :: keyword? "STATUS" text))
  | stopping text => buildPayload rt [] (keywords (("STOPPING", .int 1) :: keyword? "STATUS" text))
  | reloading text => buildPayload rt [] (reloadFields 0 text)
  | status text => buildPayload rt [] (keywords [("STATUS", text)])
  | errno value => do buildPayload rt [] (keywords [("ERRNO", .int (← value))])
  | mainPid pid => do buildPayload rt [] (keywords [("MAINPID", .int (← pid.getD (.ok 1)))])
  | extendTimeout usec => do buildPayload rt [] (keywords [("EXTEND_TIMEOUT_USEC", .int (← usec))])
  | watchdogPing => buildPayload rt [] (keywords [("WATCHDOG", .int 1)])
  | watchdogTrigger => buildPayload rt [] (keywords [("WATCHDOG", .text (str "trigger"))])
  | fdstore fds name poll =>
    if fds.toList = [] then .error (.valueError "no descriptors given" [])
    else do buildPayload rt [] (keywords (storeFields (← name.mapM checkFdname) poll))
  | fdstoreRemove name => do
    buildPayload rt [] (keywords [("FDSTOREREMOVE", .int 1), ("FDNAME", .text (← checkFdname name))])

end Notification

/-! What does not depend on the process id and the time. -/

variable {rt : Runtime}

theorem newline_notMem_int (i : Int) : newline ∉ str (toString i) := by
  intro hmem
  obtain ⟨c, hc, heq⟩ := List.mem_map.mp hmem
  have hnewline : ¬ (('\n' : Char).isDigit ∨ ('\n' : Char) = '-') := by decide
  exact hnewline (isDigit_or_eq_of_mem_toString (CodePoint.scalar.inj heq ▸ hc))

def intField (field : Str × Int) : Str × Value := (field.1, .int field.2)

def intLine (field : Str × Int) : Str := field.1 ++ equals :: str (toString field.2)

theorem assignment_int {field : Str × Int} (hname : Named Char.isUpper field.1) :
    assignment rt (intField field) = .ok (intLine field) := by
  simp only [assignment, intField, checkName_of_named rt hname, formatValue, Fallible.ok_bind,
    if_neg (newline_notMem_int field.2)]
  rfl

theorem encodable_intLine {field : Str × Int} (hname : Named Char.isUpper field.1) : Encodable (intLine field) := by
  rw [encodable_assignment (@assignment_int .unixPort field hname)]
  exact ⟨str (toString field.2), rfl, _, encodeUtf8_scalars _⟩

theorem assignments_int {ints : List (Str × Int)} (hnames : ∀ field ∈ ints, Named Char.isUpper field.1) :
    (ints.map intField).mapM (assignment rt) = .ok (ints.map intLine) := by
  induction ints with
  | nil => rfl
  | cons field ints ih =>
    obtain ⟨hfield, hints⟩ := List.forall_mem_cons.mp hnames
    rw [List.map_cons, List.mapM_cons, assignment_int hfield, ih hints]
    rfl

/-- The integers of a payload have no part in whether and why it is refused. -/
theorem buildPayload_ints {fields : Dict Str Value} {ints : List (Str × Int)} {rest : List (Str × Value)}
    (hsorted : fields.sorted = ints.map intField ++ rest) (hne : ints ≠ [])
    (hnames : ∀ field ∈ ints, Named Char.isUpper field.1) {e : PyErr} :
    buildPayload rt [] fields = .error e ↔ rest.mapM (assignment rt) = .error e ∨
      ∃ lines, rest.mapM (assignment rt) = .ok lines ∧ (¬ ∀ line ∈ lines, Encodable line) ∧ e = .unicodeError := by
  have hassigned : fields.sorted.mapM (assignment rt) =
      (do return ints.map intLine ++ (← rest.mapM (assignment rt))) := by
    rw [hsorted, List.mapM_append, assignments_int hnames]
    rfl
  cases hrest : rest.mapM (assignment rt) with
  | error e' =>
    have hlines : payloadLines rt [] fields = .error e' := by
      simp only [payloadLines, hassigned, hrest, List.mapM_nil, Fallible.pure_eq_ok, Fallible.ok_bind,
        Fallible.error_bind]
    rw [buildPayload, hlines]
    simp
  | ok lines =>
    have hlines : payloadLines rt [] fields = .ok (ints.map intLine ++ lines) := by
      simp only [payloadLines, hassigned, hrest, List.mapM_nil, Fallible.pure_eq_ok, Fallible.ok_bind]
      rfl
    have hall : (∀ line ∈ ints.map intLine ++ lines, Encodable line) ↔ ∀ line ∈ lines, Encodable line := by
      rw [List.forall_mem_append, List.forall_mem_map]
      exact and_iff_right fun field hfield => encodable_intLine (hnames field hfield)
    have hsome : ints.map intLine ++ lines ≠ [] := by simp [hne]
    simp only [buildPayload, hlines, Fallible.ok_bind, if_neg hsome, encodeUtf8_error_iff, encodable_joined, hall]
    simp

theorem buildPayload_now (now : Nat) (text : Option Value) {e : PyErr} :
    buildPayload rt [] (Notification.reloadFields now text) = .error e ↔
      buildPayload rt [] (Notification.reloadFields 0 text) = .error e := by
  have hsorted : ∀ now : Nat, (Notification.reloadFields now text).sorted =
      [(str "MONOTONIC_USEC", (now : Int)), (str "RELOADING", 1)].map intField ++
        (text.map fun text => (str "STATUS", text)).toList := by
    intro now
    cases text with
    | none => rfl
    | some text => rfl
  have hnames : ∀ now : Nat, ∀ field ∈ [(str "MONOTONIC_USEC", (now : Int)), (str "RELOADING", 1)],
      Named Char.isUpper field.1 := by
    intro now field hfield
    rw [List.mem_cons, List.mem_singleton] at hfield
    rcases hfield with rfl | rfl
    · exact (show Named Char.isUpper (str "MONOTONIC_USEC") by decide)
    · exact (show Named Char.isUpper (str "RELOADING") by decide)
  rw [buildPayload_ints (hsorted now) (List.cons_ne_nil _ _) (hnames now),
    buildPayload_ints (hsorted 0) (List.cons_ne_nil _ _) (hnames 0)]

theorem buildPayload_pid (pid pid' : Int) {e : PyErr} :
    buildPayload rt [] (keywords [("MAINPID", .int pid)]) = .error e ↔
      buildPayload rt [] (keywords [("MAINPID", .int pid')]) = .error e := by
  have hname : Named Char.isUpper (str "MAINPID") := by decide
  have hsorted : ∀ pid, (keywords [("MAINPID", .int pid)]).sorted = [(str "MAINPID", pid)].map intField ++ [] :=
    fun pid => rfl
  rw [buildPayload_ints (hsorted pid) (List.cons_ne_nil _ _) (List.forall_mem_singleton.mpr hname),
    buildPayload_ints (hsorted pid') (List.cons_ne_nil _ _) (List.forall_mem_singleton.mpr hname)]

/-! The two runs of a notification. -/

namespace Notification

variable {n : Notifier} {w : World}

/-- A run that is refused for its arguments, or comes to `send_raw` with a payload. -/
def Sends (rt : Runtime) (c : Notification) (m : Py Notifier Bool) (n : Notifier) (w : World) : Prop :=
  (∃ e, c.payload rt = .error e ∧ (m.run n w).1.1 = .error e) ∨
    (∃ data, c.payload rt = .ok data) ∧ ∃ data w',
      m.run n w = (Notifier.sendRaw rt (.bytes data) c.fds).run n w' ∧ (w' = w ∨ c.fds = [] ∧ w' = w.skip)

theorem sends_payload {c : Notification} {result : Except PyErr Bytes} {w' : World} {m : Py Notifier Bool}
    (herror : ∀ e, result = .error e ↔ c.payload rt = .error e)
    (hrun : m.run n w = Py.run (do Notifier.sendRaw rt (.bytes (← Method.lift result)) c.fds) n w')
    (hw : w' = w ∨ c.fds = [] ∧ w' = w.skip) : Sends rt c m n w := by
  rcases Fallible.isOk_or_isError result with ⟨data, hresult⟩ | ⟨e, hresult⟩
  · have hpayload : ∃ data, c.payload rt = .ok data := by
      rcases Fallible.isOk_or_isError (c.payload rt) with hok | ⟨e, he⟩
      · exact hok
      · rw [(herror e).mpr he] at hresult
        cases hresult
    have hlift : Py.run (Method.lift result) n w' = ((.ok data, n), w') := by
      rw [hresult]
      rfl
    exact .inr ⟨hpayload, data, w', hrun.trans (Method.run_bind_ok hlift), hw⟩
  · have hlift : Py.run (Method.lift result) n w' = ((.error e, n), w') := by
      rw [hresult]
      rfl
    have hraised : m.run n w = ((.error e, n), w') := hrun.trans (Method.run_bind_error hlift)
    exact .inl ⟨e, (herror e).mp hresult, by rw [hraised]⟩

theorem sends_method (hpermits : w.Permits) (c : Notification) : Sends rt c (c.method rt) n w := by
  cases c with
  | reloading text =>
    have hclock : Py.run monotonicUs n w = ((.ok w.kernel.clock, n), w.skip) :=
      run_permitted .monotonicUs (fun now => now) hpermits ⟨rfl, rfl⟩ rfl
    exact sends_payload (fun e => buildPayload_now w.kernel.clock text) (Method.run_bind_ok hclock)
      (.inr ⟨rfl, rfl⟩)
  | errno value =>
    cases value with
    | error e => exact .inl ⟨e, rfl, rfl⟩
    | ok i => exact sends_payload (fun _ => Iff.rfl) rfl (.inl rfl)
  | extendTimeout usec =>
    cases usec with
    | error e => exact .inl ⟨e, rfl, rfl⟩
    | ok i => exact sends_payload (fun _ => Iff.rfl) rfl (.inl rfl)
  | mainPid pid =>
    cases pid with
    | none =>
      have hpid : Py.run getpid n w = ((.ok w.kernel.pid, n), w.skip) := rfl
      exact sends_payload (fun e => buildPayload_pid w.kernel.pid 1) (Method.run_bind_ok hpid) (.inr ⟨rfl, rfl⟩)
    | some pid =>
      cases pid with
      | error e => exact .inl ⟨e, rfl, rfl⟩
      | ok pid => exact sends_payload (fun _ => Iff.rfl) rfl (.inl rfl)
  | fdstore fds name poll =>
    by_cases hfds : fds.toList = []
    · refine .inl ⟨.valueError "no descriptors given" [], if_pos hfds, ?_⟩
      simp only [method, Notifier.fdstore, if_pos hfds]
      rfl
    · rcases Fallible.isOk_or_isError (name.mapM checkFdname) with ⟨accepted, hname⟩ | ⟨e, hname⟩
      · have hpayload : ∀ e, buildPayload rt [] (keywords (storeFields accepted poll)) = .error e ↔
            (fdstore fds name poll).payload rt = .error e := by
          intro e
          simp only [payload, if_neg hfds, hname, Fallible.ok_bind]
        refine sends_payload hpayload ?_ (.inl rfl)
        simp only [method, Notifier.fdstore, if_neg hfds, hname]
        rfl
      · refine .inl ⟨e, ?_, ?_⟩
        · simp only [payload, if_neg hfds, hname, Fallible.error_bind]
        · simp only [method, Notifier.fdstore, if_neg hfds, hname]
          rfl
  | fdstoreRemove name =>
    rcases Fallible.isOk_or_isError (checkFdname name) with ⟨accepted, hname⟩ | ⟨e, hname⟩
    · have hpayload : ∀ e,
          buildPayload rt [] (keywords [("FDSTOREREMOVE", .int 1), ("FDNAME", .text accepted)]) = .error e ↔
            (fdstoreRemove name).payload rt = .error e := by
        intro e
        simp only [payload, hname, Fallible.ok_bind]
      refine sends_payload hpayload ?_ (.inl rfl)
      simp only [method, Notifier.fdstoreRemove, hname]
      rfl
    · refine .inl ⟨e, ?_, ?_⟩
      · simp only [payload, hname, Fallible.error_bind]
      · simp only [method, Notifier.fdstoreRemove, hname]
        rfl
  | _ => exact sends_payload (fun _ => Iff.rfl) rfl (.inl rfl)

theorem run_sends {c : Notification} {path : Bytes} (h : Accepts n w path) (data : Bytes) {w' : World}
    (hw : w' = w ∨ c.fds = [] ∧ w' = w.skip) :
    (Attachable rt n w c.fds ∧ ((Notifier.sendRaw rt (.bytes data) c.fds).run n w').1.1 = .ok true ∧
      ∃ message, ((Notifier.sendRaw rt (.bytes data) c.fds).run n w').2.kernel.sent = w.kernel.sent ++ [message]) ∨
    (¬ Attachable rt n w c.fds ∧ ∃ e, ((Notifier.sendRaw rt (.bytes data) c.fds).run n w').1.1 = .error e) := by
  rcases hw with rfl | ⟨hnil, rfl⟩
  · rcases @run_sendRaw rt n w' path h data c.fds with hsent | ⟨hnot, e, -, he⟩
    · exact .inl hsent
    · exact .inr ⟨hnot, e, he⟩
  · rw [hnil]
    rcases @run_sendRaw rt n w.skip path h.skip data [] with ⟨-, hsent⟩ | ⟨hnot, -⟩
    · exact .inl ⟨attachable_nil, hsent⟩
    · exact absurd attachable_nil hnot

/-- A store whose descriptors can go with a message, or whose other arguments are
refused anyway; any other notification. -/
def Portable (rt : Runtime) (n : Notifier) (w : World) : Notification → Prop
  | fdstore fds name _ =>
    Attachable rt n w fds.toList ∨ fds.toList = [] ∨ ∃ text, name = some text ∧ ¬ (Accepted text ∧ Encodable text)
  | _ => True

theorem payload_fdstore_isOk_iff {fds : FdsArg} {name : Option Str} {poll : Option Bool} :
    (∃ data, (fdstore fds name poll).payload rt = .ok data) ↔
      fds.toList ≠ [] ∧ ∀ text, name = some text → Accepted text ∧ Encodable text := by
  by_cases hfds : fds.toList = []
  · simp [payload, hfds]
  · simp only [payload, hfds, if_false, not_false_eq_true, ne_eq, true_and]
    cases name with
    | none =>
      have hnone := @storePayload_isOk_iff rt none poll nofun
      exact hnone.trans (iff_of_true nofun nofun)
    | some text =>
      simp only [Option.some.injEq, forall_eq']
      rcases Fallible.isOk_or_isError (checkFdname text) with ⟨accepted, hname⟩ | ⟨e, hname⟩
      · have haccepted : Accepted text := ⟨accepted, hname⟩
        have hmap : (some text).mapM checkFdname = .ok (some text) := by
          rw [(checkFdname_ok hname).1] at hname
          simp [hname]
        rw [hmap, Fallible.ok_bind, and_iff_right haccepted]
        have hsome := @storePayload_isOk_iff rt (some text) poll fun _ h => by cases h; exact haccepted
        simpa only [Option.some.injEq, forall_eq'] using hsome
      · have hmap : (some text).mapM checkFdname = .error e := by simp [hname]
        rw [hmap, Fallible.error_bind]
        refine iff_of_false (fun ⟨_, h⟩ => by cases h) fun ⟨⟨accepted, h⟩, _⟩ => ?_
        rw [hname] at h
        cases h

theorem portable_of_refused {c : Notification} {e : PyErr} (h : c.payload rt = .error e) : c.Portable rt n w := by
  cases c with
  | fdstore fds name poll =>
    have hnone : ¬ ∃ data, (fdstore fds name poll).payload rt = .ok data := by
      rintro ⟨data, hdata⟩
      rw [h] at hdata
      cases hdata
    rw [payload_fdstore_isOk_iff] at hnone
    by_cases hfds : fds.toList = []
    · exact .inr (.inl hfds)
    · have hname : ¬ ∀ text, name = some text → Accepted text ∧ Encodable text := fun hall => hnone ⟨hfds, hall⟩
      push Not at hname
      obtain ⟨text, htext, hnot⟩ := hname
      exact .inr (.inr ⟨text, htext, fun hboth => hnot hboth.1 hboth.2⟩)
  | _ => trivial

theorem portable_iff_attachable {c : Notification} (h : ∃ data, c.payload rt = .ok data) :
    c.Portable rt n w ↔ Attachable rt n w c.fds := by
  cases c with
  | fdstore fds name poll =>
    obtain ⟨hfds, hname⟩ := payload_fdstore_isOk_iff.mp h
    refine ⟨?_, .inl⟩
    rintro (hattach | hnil | ⟨text, htext, hnot⟩)
    · exact hattach
    · exact absurd hnil hfds
    · exact absurd (hname text htext) hnot
  | _ => exact iff_of_true trivial attachable_nil

/-- Outside systemd and inside both raise the same exception, or the one returns
`False` and touches nothing and the other `True` with one message handed over. -/
def AsInside (w w' : World) (outside inside : (Except PyErr Bool × Notifier) × World) : Prop :=
  (∃ e, outside.1.1 = .error e ∧ inside.1.1 = .error e) ∨
    (outside.1.1 = .ok false ∧ outside.2.kernel = w.kernel) ∧
      inside.1.1 = .ok true ∧ ∃ message, inside.2.kernel.sent = w'.kernel.sent ++ [message]

/-- Where nothing refuses a call, a notification behaves outside systemd as it
does inside exactly when it is portable. -/
theorem outside_as_inside_iff (rt : Runtime) (c : Notification) {outside inside : Notifier} {path : Bytes}
    {w w' : World} (hout : outside.sunPath = none) (hpermits : w.Permits) (hin : Accepts inside w' path) :
    AsInside w w' ((c.method rt).run outside w) ((c.method rt).run inside w') ↔ c.Portable rt inside w' := by
  rcases @sends_method rt outside w hpermits c with ⟨e, hpayload, hoff⟩ | ⟨hpayload, data, w₁, hoff, hw₁⟩
  · rcases @sends_method rt inside w' hin.permits c with ⟨e', hpayload', hon⟩ | ⟨⟨data, hpayload'⟩, -⟩
    · rw [hpayload, Except.error.injEq] at hpayload'
      exact iff_of_true (.inl ⟨e, hoff, hpayload' ▸ hon⟩) (portable_of_refused hpayload)
    · rw [hpayload] at hpayload'
      cases hpayload'
  · rcases @sends_method rt inside w' hin.permits c with ⟨e', hpayload', -⟩ | ⟨-, data', w₁', hon, hw₁'⟩
    · obtain ⟨data', hpayload⟩ := hpayload
      rw [hpayload] at hpayload'
      cases hpayload'
    · have hkernel : w₁.kernel = w.kernel := by
        rcases hw₁ with rfl | ⟨-, rfl⟩
        · rfl
        · rfl
      rw [hoff, hon, run_sendRaw_unset hout, portable_iff_attachable hpayload]
      rcases run_sends hin data' hw₁' with ⟨hattach, hsent⟩ | ⟨hnot, e, he⟩
      · exact iff_of_true (.inr ⟨⟨rfl, hkernel⟩, hsent⟩) hattach
      · refine iff_of_false ?_ hnot
        rintro (⟨e', hfalse, -⟩ | ⟨-, htrue, -⟩)
        · cases hfalse
        · rw [he] at htrue
          cases htrue

def unset : Notifier := ⟨none, none, none⟩

theorem outside_as_inside_iff_named :
    AsInside storing storing (((fdstore (.one 3) (some (str "conn")) none).method .unixPort).run unset storing)
      (((fdstore (.one 3) (some (str "conn")) none).method .unixPort).run connected storing) := by
  have hattach : Attachable .unixPort connected storing [3] :=
    ⟨by decide, List.forall_mem_singleton.mpr ⟨3, rfl, .inl rfl⟩⟩
  exact (outside_as_inside_iff .unixPort (fdstore (.one 3) (some (str "conn")) none) rfl (fun _ => rfl)
    accepts_storing).mpr (.inl hattach)

/-- One descriptor more than fits into a message. -/
def tooMany : Notification := fdstore (.many (List.replicate 254 3)) none none

theorem tooMany_differs :
    ((tooMany.method .unixPort).run unset storing).1.1 = .ok false ∧
      ((tooMany.method .unixPort).run connected storing).1.1 =
        .error (.valueError "at most %d descriptors fit in one message" [.int 253]) ∧
      ¬ AsInside storing storing ((tooMany.method .unixPort).run unset storing)
        ((tooMany.method .unixPort).run connected storing) := by
  have hoff : ((tooMany.method .unixPort).run unset storing).1.1 = .ok false := rfl
  have hon : ((tooMany.method .unixPort).run connected storing).1.1 =
      .error (.valueError "at most %d descriptors fit in one message" [.int 253]) := by decide +kernel
  refine ⟨hoff, hon, ?_⟩
  rintro (⟨e, he, -⟩ | ⟨-, htrue, -⟩)
  · rw [hoff] at he
    cases he
  · rw [hon] at htrue
    cases htrue

end Notification

end Mpsystemd
