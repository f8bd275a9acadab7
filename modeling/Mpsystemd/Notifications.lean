import Mpsystemd.Lib.Runs
import Mpsystemd.OutsideSystemd

/-! What the notifications of a notifier hand over, and what a receiver reads in
them. -/

namespace Mpsystemd

variable {rt : Runtime}

namespace Notification

/-- The raw states and the keyword fields a notification comes to, in the process
`pid` at the time `now`. -/
def arguments (pid : Int) (now : Nat) : Notification → Except PyErr (List StrOrBytes × Dict Str Value)
  | notify states fields => return (states, fields)
  | ready text => return ([], keywords (("READY", .int 1) :: keyword? "STATUS" text))
  | stopping text => return ([], keywords (("STOPPING", .int 1) :: keyword? "STATUS" text))
  | reloading text => return ([], reloadFields now text)
  | status text => return ([], keywords [("STATUS", text)])
  | errno value => do return ([], keywords [("ERRNO", .int (← value))])
  | mainPid given => do return ([], keywords [("MAINPID", .int (← given.getD (.ok pid)))])
  | extendTimeout usec => do return ([], keywords [("EXTEND_TIMEOUT_USEC", .int (← usec))])
  | watchdogPing => return ([], keywords [("WATCHDOG", .int 1)])
  | watchdogTrigger => return ([], keywords [("WATCHDOG", .text (str "trigger"))])
  | fdstore fds name poll =>
    if fds.toList = [] then throw (.valueError "no descriptors given" [])
    else do return ([], keywords (storeFields (← name.mapM checkFdname) poll))
  | fdstoreRemove name => do
    return ([], keywords [("FDSTOREREMOVE", .int 1), ("FDNAME", .text (← checkFdname name))])

def body (rt : Runtime) (pid : Int) (now : Nat) (c : Notification) : Except PyErr Bytes := do
  let (states, fields) ← c.arguments pid now
  buildPayload rt states fields

/-! What a method asks the kernel for before it builds the payload. -/

def askPid : Notification → Py Notifier Int
  | mainPid none => getpid
  | _ => pure 0

def askTime : Notification → Py Notifier Nat
  | reloading _ => monotonicUs
  | _ => pure 0

/-- A method that sends what `build` makes. -/
def methodWith (rt : Runtime) (build : List StrOrBytes → Dict Str Value → Except PyErr Bytes) (c : Notification) :
    Py Notifier Bool := do
  let pid ← askPid c
  let now ← askTime c
  let (states, fields) ← Method.lift (c.arguments pid now)
  let payload ← Method.lift (build states fields)
  Notifier.sendRaw rt (.bytes payload) c.fds

theorem method_eq (rt : Runtime) (c : Notification) : c.method rt = c.methodWith rt (buildPayload rt) := by
  cases c with
  | errno value | extendTimeout value =>
    cases value with
    | error e => rfl
    | ok i => rfl
  | mainPid given =>
    cases given with
    | none => rfl
    | some given =>
      cases given with
      | error e => rfl
      | ok pid => rfl
  | fdstore fds name poll =>
    by_cases hfds : fds.toList = []
    · simp only [method, Notifier.fdstore, methodWith, arguments, if_pos hfds]
      rfl
    · simp only [method, Notifier.fdstore, methodWith, arguments, if_neg hfds]
      cases name.mapM checkFdname with
      | error e => rfl
      | ok accepted => rfl
  | fdstoreRemove name =>
    simp only [method, Notifier.fdstoreRemove, methodWith, arguments]
    cases checkFdname name with
    | error e => rfl
    | ok accepted => rfl
  | _ => rfl

theorem methodWith_congr (rt : Runtime) {build build' : List StrOrBytes → Dict Str Value → Except PyErr Bytes}
    {c : Notification} (h : ∀ pid now states fields, c.arguments pid now = .ok (states, fields) →
      build states fields = build' states fields) : c.methodWith rt build = c.methodWith rt build' := by
  refine congrArg (askPid c >>= ·) (funext fun pid => congrArg (askTime c >>= ·) (funext fun now => ?_))
  cases hargs : c.arguments pid now with
  | error e => rfl
  | ok args =>
    obtain ⟨states, fields⟩ := args
    simp only [Method.lift_ok_bind, h pid now states fields hargs]

/-! The assignments of the protocol. -/

def formatField : String × Value → Except PyErr (Str × Str)
  | (name, value) => do return (str name, ← formatValue value)

def optional (name : String) (value : Option Value) : Except PyErr (List (Str × Str)) :=
  (keyword? name value).mapM formatField

/-- The assignments of the protocol that a notification stands for. -/
def assignments (rt : Runtime) (pid : Int) (now : Nat) : Notification → Except PyErr (List (Str × Str))
  | notify states fields => do
    let texts ← states.mapM StrOrBytes.decode
    let pairs ← fields.sorted.mapM (formatted rt)
    return (texts.flatMap (Separator.pieces newline)).map Datagram.parseLine ++ pairs
  | ready text => do return (str "READY", str "1") :: (← optional "STATUS" text)
  | stopping text => do return (str "STOPPING", str "1") :: (← optional "STATUS" text)
  | reloading text => do
    return (str "RELOADING", str "1") :: (str "MONOTONIC_USEC", str (toString now)) ::
      (← optional "STATUS" text)
  | status text => do return [(str "STATUS", ← formatValue text)]
  | errno value => do return [(str "ERRNO", str (toString (← value)))]
  | mainPid given => do return [(str "MAINPID", str (toString (← given.getD (.ok pid))))]
  | extendTimeout usec => do return [(str "EXTEND_TIMEOUT_USEC", str (toString (← usec)))]
  | watchdogPing => return [(str "WATCHDOG", str "1")]
  | watchdogTrigger => return [(str "WATCHDOG", str "trigger")]
  | fdstore _ name poll => return storeAssignments name poll
  | fdstoreRemove name => return [(str "FDSTOREREMOVE", str "1"), (str "FDNAME", name)]

end Notification

/-- A receiver reads the assignments in the data: of each name the last value. -/
def Reads (data : Bytes) (pairs : List (Str × Str)) : Prop :=
  ∃ parsed, (Datagram.mk data []).fields = .ok parsed ∧ ∀ name, parsed.get? name = Dict.lastOf pairs name

/-! What is read in a payload. -/

theorem reads_buildPayload {states : List StrOrBytes} {fields : Dict Str Value} {data : Bytes}
    (h : buildPayload rt states fields = .ok data) :
    ∃ pairs, (Notification.notify states fields).assignments rt 0 0 = .ok pairs ∧ Reads data pairs := by
  obtain ⟨texts, pairs, htexts, hpairs, hequals, hlines⟩ := lines_buildPayload h []
  obtain ⟨parsed, hparsed, hget⟩ := get?_fields hlines
  have hparse : (pairs.map assign).map Datagram.parseLine = pairs := by
    rw [List.map_map]
    exact (List.map_congr_left fun pair hpair => parseLine_assign (hequals pair hpair)).trans (List.map_id _)
  refine ⟨(texts.flatMap (Separator.pieces newline)).map Datagram.parseLine ++ pairs, ?_, parsed, hparsed,
    fun name => ?_⟩
  · rw [Notification.assignments, htexts, Fallible.ok_bind, hpairs, Fallible.ok_bind]
    rfl
  · rw [hget, List.map_append, hparse]

/-- Names of the protocol, each once. -/
def WellNamed (names : List Str) : Prop := names.Nodup ∧ ∀ name ∈ names, Named Char.isUpper name

instance : DecidablePred WellNamed := fun _ => inferInstanceAs (Decidable (_ ∧ _))

theorem reads_keywords {fields : List (String × Value)} {data : Bytes}
    (hnames : WellNamed (fields.map fun field => str field.1))
    (h : buildPayload rt [] (keywords fields) = .ok data) :
    ∃ pairs, fields.mapM Notification.formatField = .ok pairs ∧ Reads data pairs := by
  obtain ⟨hnodup, hnamed⟩ := hnames
  rw [List.forall_mem_map] at hnamed
  have hmem := fun entry => @mem_keywords fields hnodup entry
  have hupper : ∀ entry ∈ (keywords fields).entries, rt.upper entry.1 = entry.1 := by
    intro entry hentry
    obtain ⟨field, hfield, hkey, -⟩ := (hmem entry).mp hentry
    rw [← hkey]
    exact upper_of_named rt (hnamed field hfield)
  have hdistinct : ((keywords fields).entries.map fun entry => rt.upper entry.1).Nodup := by
    rw [List.map_congr_left hupper]
    exact (keywords fields).nodup
  obtain ⟨parsed, hparsed, hget⟩ := get?_fields_buildPayload h [] hdistinct
  have hformat : ∀ field ∈ fields, ∃ pair, Notification.formatField field = .ok pair := by
    intro field hfield
    have hentry := (hmem (str field.1, field.2)).mpr ⟨field, hfield, rfl, rfl⟩
    obtain ⟨value, hvalue, -⟩ := (buildPayload_isOk_iff.mp ⟨data, h⟩).values _ hentry
    exact ⟨(str field.1, value), Fallible.bind_eq_ok.mpr ⟨value, hvalue, rfl⟩⟩
  obtain ⟨pairs, hpairs⟩ := Fallible.mapM_isOk_iff.mpr hformat
  have hkeys : pairs.map Prod.fst = fields.map fun field => str field.1 := by
    have hall := Fallible.mapM_eq_ok.mp hpairs
    clear hpairs hnodup hmem hnamed hformat hdistinct hupper hget h
    induction hall with
    | nil => rfl
    | cons hpair _ ih =>
      obtain ⟨value, -, hpair⟩ := Fallible.bind_eq_ok.mp hpair
      cases hpair
      rw [List.map_cons, List.map_cons, ih]
  refine ⟨pairs, hpairs, parsed, hparsed, fun name => Option.ext fun value => ?_⟩
  rw [hget, Dict.lastOf_eq_some_iff_mem (hkeys ▸ hnodup), Fallible.mem_of_mapM hpairs]
  constructor
  · rintro ⟨entry, hentry, hname, hvalue⟩
    obtain ⟨field, hfield, hkey, hsame⟩ := (hmem entry).mp hentry
    rw [hupper entry hentry] at hname
    refine ⟨field, hfield, Fallible.bind_eq_ok.mpr ⟨value, hsame ▸ hvalue, ?_⟩⟩
    rw [hkey, hname]
    rfl
  · rintro ⟨field, hfield, hpair⟩
    obtain ⟨value', hvalue, hpair⟩ := Fallible.bind_eq_ok.mp hpair
    cases hpair
    have hentry := (hmem (str field.1, field.2)).mpr ⟨field, hfield, rfl, rfl⟩
    exact ⟨_, hentry, hupper _ hentry, hvalue⟩

namespace Notification

variable {pid : Int} {now : Nat} {data : Bytes}

theorem mapM_formatField_cons {name : String} {value : Value} {text : Str} {rest : List (String × Value)}
    (h : formatValue value = .ok text) :
    ((name, value) :: rest).mapM formatField = (do return (str name, text) :: (← rest.mapM formatField)) := by
  have hfield : formatField (name, value) = .ok (str name, text) := Fallible.bind_eq_ok.mpr ⟨text, h, rfl⟩
  rw [List.mapM_cons, hfield, Fallible.ok_bind]

theorem wellNamed_status {name : String} (hname : WellNamed [str name, str "STATUS"]) (value : Value)
    (text : Option Value) :
    WellNamed (((name, value) :: keyword? "STATUS" text).map fun field => str field.1) := by
  cases text with
  | none => exact ⟨List.nodup_singleton _, List.forall_mem_singleton.mpr (hname.2 _ List.mem_cons_self)⟩
  | some text => exact hname

theorem reads_one {name : String} {value : Value} (hname : WellNamed [str name])
    (h : buildPayload rt [] (keywords [(name, value)]) = .ok data) :
    ∃ text, formatValue value = .ok text ∧ Reads data [(str name, text)] := by
  obtain ⟨pairs, hpairs, hreads⟩ := @reads_keywords rt [(name, value)] data hname h
  rcases Fallible.isOk_or_isError (formatValue value) with ⟨text, htext⟩ | ⟨e, he⟩
  · rw [mapM_formatField_cons htext] at hpairs
    cases hpairs
    exact ⟨text, htext, hreads⟩
  · have hfield : formatField (name, value) = .error e := by rw [formatField, he, Fallible.error_bind]
    rw [List.mapM_cons, hfield] at hpairs
    cases hpairs

theorem wellNamed_storeFields (name : Option Str) (poll : Option Bool) :
    WellNamed ((storeFields name poll).map fun field => str field.1) :=
  ⟨storeFields_nodup name poll, fun key hkey =>
    named_storeNames key ((storeFields_names name poll).subset hkey)⟩

theorem mapM_formatField_storeFields (name : Option Str) (poll : Option Bool) :
    (storeFields name poll).mapM formatField = .ok (storeAssignments name poll) := by
  cases name
  all_goals rcases poll with _ | _ | _
  all_goals rfl

/-- A receiver reads in the data what the notification stands for. -/
theorem mapM_checkFdname {name accepted : Option Str} (h : name.mapM checkFdname = .ok accepted) :
    accepted = name := by
  cases name with
  | none =>
    cases h
    rfl
  | some text =>
    obtain ⟨text', htext', hsome⟩ := Fallible.bind_eq_ok.mp h
    cases hsome
    rw [(checkFdname_ok htext').1]

theorem reads_body {c : Notification} (h : c.body rt pid now = .ok data) :
    ∃ pairs, c.assignments rt pid now = .ok pairs ∧ Reads data pairs := by
  cases c with
  | notify states fields => exact reads_buildPayload h
  | ready text =>
    obtain ⟨pairs, hpairs, hreads⟩ := reads_keywords (wellNamed_status (by decide) (.int 1) text) h
    rw [mapM_formatField_cons rfl] at hpairs
    exact ⟨pairs, hpairs, hreads⟩
  | stopping text =>
    obtain ⟨pairs, hpairs, hreads⟩ := reads_keywords (wellNamed_status (by decide) (.int 1) text) h
    rw [mapM_formatField_cons rfl] at hpairs
    exact ⟨pairs, hpairs, hreads⟩
  | reloading text =>
    have hnames : WellNamed ((("RELOADING", .int 1) :: ("MONOTONIC_USEC", .int now) ::
        keyword? "STATUS" text).map fun field => str field.1) := by
      cases text with
      | none => exact (show WellNamed [str "RELOADING", str "MONOTONIC_USEC"] by decide)
      | some text => exact (show WellNamed [str "RELOADING", str "MONOTONIC_USEC", str "STATUS"] by decide)
    obtain ⟨pairs, hpairs, hreads⟩ := reads_keywords hnames h
    rw [mapM_formatField_cons rfl, mapM_formatField_cons rfl] at hpairs
    obtain ⟨later, hlater, hall⟩ := Fallible.bind_eq_ok.mp hpairs
    obtain ⟨status, hstatus, hlater⟩ := Fallible.bind_eq_ok.mp hlater
    cases hlater
    cases hall
    exact ⟨_, Fallible.bind_eq_ok.mpr ⟨status, hstatus, rfl⟩, hreads⟩
  | status text =>
    obtain ⟨value, hvalue, hreads⟩ := reads_one (by decide) h
    exact ⟨_, Fallible.bind_eq_ok.mpr ⟨value, hvalue, rfl⟩, hreads⟩
  | errno value =>
    obtain ⟨⟨states, fields⟩, hargs, h⟩ := Fallible.bind_eq_ok.mp h
    obtain ⟨i, rfl, hargs⟩ := Fallible.bind_eq_ok.mp hargs
    cases hargs
    obtain ⟨text, htext, hreads⟩ := reads_one (by decide) h
    cases htext
    exact ⟨_, rfl, hreads⟩
  | mainPid given =>
    obtain ⟨⟨states, fields⟩, hargs, h⟩ := Fallible.bind_eq_ok.mp h
    obtain ⟨i, hi, hargs⟩ := Fallible.bind_eq_ok.mp hargs
    cases hargs
    obtain ⟨text, htext, hreads⟩ := reads_one (by decide) h
    cases htext
    exact ⟨_, Fallible.bind_eq_ok.mpr ⟨i, hi, rfl⟩, hreads⟩
  | extendTimeout usec =>
    obtain ⟨⟨states, fields⟩, hargs, h⟩ := Fallible.bind_eq_ok.mp h
    obtain ⟨i, rfl, hargs⟩ := Fallible.bind_eq_ok.mp hargs
    cases hargs
    obtain ⟨text, htext, hreads⟩ := reads_one (by decide) h
    cases htext
    exact ⟨_, rfl, hreads⟩
  | watchdogPing =>
    obtain ⟨text, htext, hreads⟩ := reads_one (by decide) h
    cases htext
    exact ⟨_, rfl, hreads⟩
  | watchdogTrigger =>
    obtain ⟨text, htext, hreads⟩ := reads_one (by decide) h
    cases htext
    exact ⟨_, rfl, hreads⟩
  | fdstore fds name poll =>
    obtain ⟨⟨states, fields⟩, hargs, h⟩ := Fallible.bind_eq_ok.mp h
    rw [arguments] at hargs
    split at hargs
    · cases hargs
    · obtain ⟨accepted, haccepted, hargs⟩ := Fallible.bind_eq_ok.mp hargs
      cases hargs
      obtain ⟨pairs, hpairs, hreads⟩ := reads_keywords (wellNamed_storeFields accepted poll) h
      rw [mapM_formatField_storeFields, mapM_checkFdname haccepted] at hpairs
      cases hpairs
      exact ⟨_, rfl, hreads⟩
  | fdstoreRemove name =>
    obtain ⟨⟨states, fields⟩, hargs, hbuild⟩ := Fallible.bind_eq_ok.mp h
    obtain ⟨accepted, haccepted, hargs⟩ := Fallible.bind_eq_ok.mp hargs
    cases hargs
    obtain ⟨rfl, -⟩ := checkFdname_ok haccepted
    have hnames : WellNamed [str "FDSTOREREMOVE", str "FDNAME"] := by decide
    obtain ⟨pairs, hpairs, hreads⟩ :=
      @reads_keywords rt [("FDSTOREREMOVE", .int 1), ("FDNAME", .text accepted)] data hnames hbuild
    rw [mapM_formatField_cons rfl, mapM_formatField_cons rfl] at hpairs
    cases hpairs
    exact ⟨_, rfl, hreads⟩

end Notification

/-! What the calls hand over. -/

namespace Notifier

variable {path : Bytes} {n : Notifier} {k : Kernel}

/-- The notifier has the socket it had, or a new one that is its first. -/
def Connects (path : Bytes) (n n' : Notifier) (k k' : Kernel) : Prop :=
  n' = n ∧ k' = k ∨
    n.sock = none ∧ ∃ fd : Nat, k.Free fd ∧ n' = { n with sock := some ⟨fd, some path⟩ } ∧
      k' = k.install fd ⟨.socket, true⟩

theorem Connects.refl : Connects path n n k k := .inl ⟨rfl, rfl⟩

theorem Connects.reaches {n' : Notifier} {k' : Kernel} (h : Connects path n n' k k') (hn : n.Reaches path) :
    n'.Reaches path := by
  rcases h with ⟨rfl, -⟩ | ⟨-, fd, -, rfl, -⟩
  · exact hn
  · refine ⟨hn.sunPath, fun sock hsock => ?_⟩
    cases hsock
    rfl

theorem ends_openSock (hn : n.Reaches path) {ok : UnixDatagram → Notifier → Kernel → Prop}
    {err : PyErr → Notifier → Kernel → Prop}
    (hok : ∀ sock n' k', Connects path n n' k k' → sock.peer = some path → ok sock n' k')
    (herr : ∀ e, err e n k) : Py.Ends (openSock path) ok err n k := by
  rw [openSock]
  refine Method.obeys_bind.mpr (Method.obeys_attributes.mpr ?_)
  cases hsock : n.sock with
  | some sock => exact hok sock n k .refl (hn.sock sock hsock)
  | none =>
    refine Method.obeys_bind.mpr ?_
    apply ends_newDatagram
    · intro fd hfree
      exact hok _ _ _ (.inr ⟨hsock, fd, hfree, rfl, rfl⟩) rfl
    · exact fun e => herr _

theorem ends_sendOver {sock : UnixDatagram} {data : Bytes} {fds : List Fd} (hpeer : sock.peer = some path)
    {ok : Bool → Notifier → Kernel → Prop} {err : PyErr → Notifier → Kernel → Prop}
    (hok : ∀ message, Carries rt path data fds k message → ok true n (k.post message)) (herr : ∀ e, err e n k) :
    Py.Ends (do
      let _ ← if fds ≠ [] then sock.sendWithFds rt data fds else sock.send data
      return true) ok err n k := by
  split
  · next hfds =>
    rw [UnixDatagram.sendWithFds_eq hpeer hfds]
    refine Method.obeys_bind.mpr (Method.obeys_bind.mpr ?_)
    cases hrights : UnixDatagram.rights rt fds with
    | error e => exact herr e
    | ok rights =>
      refine Method.obeys_lift_ok.mpr ?_
      apply ends_attempt (.sendmsg sock.fd path data rights) id
        (fun _ => k.deliver sock.fd path data (rights.mapM k.fileAt)) (fun c => ⟨rfl, rfl⟩)
      · intro c _ k' hdeliver
        obtain ⟨files, hfiles, rfl⟩ := Kernel.deliver_eq_ok hdeliver
        exact hok ⟨path, data, files⟩ ⟨rfl, rfl, rights, hrights, hfiles⟩
      · exact fun e => herr _
  · next hnil =>
    have hrights : UnixDatagram.rights rt fds = .ok [] := by
      rw [not_not.mp hnil]
      rfl
    refine Method.obeys_bind.mpr ?_
    apply ends_send hpeer
    · exact fun _ => hok ⟨path, data, []⟩ ⟨rfl, rfl, [], hrights, rfl⟩
    · exact fun e => herr _

theorem ends_sendRaw (hn : n.Reaches path) {data : Bytes} {fds : List Fd}
    {ok : Bool → Notifier → Kernel → Prop} {err : PyErr → Notifier → Kernel → Prop}
    (hok : ∀ n' k' message, Connects path n n' k k' → Carries rt path data fds k' message →
      ok true n' (k'.post message))
    (herr : ∀ e n' k', Connects path n n' k k' → err e n' k') :
    Py.Ends (sendRaw rt (.bytes data) fds) ok err n k := by
  rw [sendRaw]
  refine Method.obeys_bind.mpr (Method.obeys_attributes.mpr ?_)
  simp only [hn.sunPath]
  refine Method.obeys_bind.mpr (Method.obeys_lift_ok.mpr (Method.obeys_bind.mpr ?_))
  apply ends_openSock hn
  · intro sock n' k' hconnects hpeer
    exact ends_sendOver hpeer (fun message hcarries => hok n' k' message hconnects hcarries)
      fun e => herr e n' k' hconnects
  · exact fun e => herr e n k .refl

theorem ends_sendRaw_unset (hn : n.sunPath = none) {data : Bytes} {fds : List Fd}
    {ok : Bool → Notifier → Kernel → Prop} {err : PyErr → Notifier → Kernel → Prop} (hok : ok false n k) :
    Py.Ends (sendRaw rt (.bytes data) fds) ok err n k := by
  rw [sendRaw]
  refine Method.obeys_bind.mpr (Method.obeys_attributes.mpr ?_)
  simp only [hn]
  exact hok

theorem sock_ofAddress {address : Option StrOrBytes} {n : Notifier} (h : ofAddress address = .ok n) :
    n.sock = none := by
  rw [ofAddress] at h
  split at h
  · cases h
    rfl
  · obtain ⟨sunPath, -, hn⟩ := Fallible.bind_eq_ok.mp h
    cases hn
    rfl

theorem ends_close {ok : Unit → Notifier → Kernel → Prop} {err : PyErr → Notifier → Kernel → Prop}
    (hnone : n.sock = none → ok () n k)
    (hsome : ∀ sock, n.sock = some sock → 0 ≤ sock.fd ∧ ∃ file, k.fileAt sock.fd = some file ∧
      ok () { n with sock := none } (k.shut sock.fd file)) : Py.Ends (close rt) ok err n k := by
  rw [close]
  refine Method.obeys_bind.mpr (Method.obeys_attributes.mpr ?_)
  cases hsock : n.sock with
  | none => exact hnone hsock
  | some sock =>
    obtain ⟨hnonneg, file, hfile, hok⟩ := hsome sock hsock
    refine Method.obeys_bind.mpr (Method.obeys_zoom.mpr ?_)
    apply ends_closeDatagram hnonneg hfile
    exact Method.obeys_update.mpr hok

end Notifier

namespace Notification

open Notifier (Connects Carries)

variable {path : Bytes} {n : Notifier} {k : Kernel} {c : Notification}

/-- A notification sends its body, unless the clock cannot be read. -/
theorem ends_method_of_body {ok : Bool → Notifier → Kernel → Prop} {err : PyErr → Notifier → Kernel → Prop}
    (h : Py.Ends (do Notifier.sendRaw rt (.bytes (← Method.lift (c.body rt k.pid k.clock))) c.fds) ok err n k)
    (herr : ∀ e, err e n k) : Py.Ends (c.method rt) ok err n k := by
  rw [body, Method.lift_bind, Method.bind_assoc] at h
  rw [method_eq]
  cases c with
  | reloading text =>
    refine Method.obeys_bind.mpr (Method.obeys_pure.mpr (Method.obeys_bind.mpr ?_))
    apply ends_attempt .monotonicUs id (fun _ => .ok (k.clock, k)) (fun c => ⟨rfl, rfl⟩)
    · intro _ now k' hclock
      cases hclock
      exact h
    · exact fun e => herr _
  | mainPid given =>
    cases given with
    | none =>
      refine Method.obeys_bind.mpr (Method.obeys_call.mpr ⟨trivial, ?_⟩)
      rintro pid k' ⟨_, hpid⟩
      cases hpid
      exact h
    | some given => exact h
  | _ => exact h

/-- One message more: what the notification comes to where it is made. -/
structure Told (rt : Runtime) (path : Bytes) (c : Notification) (k k' : Kernel) (message : Message) : Prop where
  body : c.body rt k.pid k.clock = .ok message.data
  carries : Carries rt path message.data c.fds k' message

theorem ends_method (hn : n.Reaches path) {ok : Bool → Notifier → Kernel → Prop}
    {err : PyErr → Notifier → Kernel → Prop}
    (hok : ∀ n' k' message, Connects path n n' k k' → Told rt path c k k' message →
      ok true n' (k'.post message))
    (herr : ∀ e n' k', Connects path n n' k k' → err e n' k') : Py.Ends (c.method rt) ok err n k := by
  apply ends_method_of_body
  · refine Method.obeys_bind.mpr ?_
    cases hbody : c.body rt k.pid k.clock with
    | error e => exact herr e n k .refl
    | ok data =>
      refine Method.obeys_lift_ok.mpr ?_
      apply Notifier.ends_sendRaw hn
      · intro n' k' message hconnects hcarries
        have hdata := hcarries.data
        subst hdata
        exact hok n' k' message hconnects ⟨hbody, hcarries⟩
      · exact herr
  · exact fun e => herr e n k .refl

theorem ends_method_unset (hn : n.sunPath = none) {ok : Bool → Notifier → Kernel → Prop}
    {err : PyErr → Notifier → Kernel → Prop} (hok : ok false n k) (herr : ∀ e, err e n k) :
    Py.Ends (c.method rt) ok err n k := by
  apply ends_method_of_body
  · refine Method.obeys_bind.mpr ?_
    cases c.body rt k.pid k.clock with
    | error e => exact herr e
    | ok data => exact Method.obeys_lift_ok.mpr (Notifier.ends_sendRaw_unset hn hok)
  · exact herr

end Notification

/-! Runs of one notifier, with anything else in between. -/

inductive TellingEvent where
  | calls (c : Notification)
  | others (kernel : Kernel)

/-- `told` are the calls that returned `True`, each with the kernel it met, and
`handed` the messages that were handed over during calls. -/
structure Telling where
  notifier : Notifier
  world : World
  told : List (Kernel × Notification)
  handed : List Message

namespace Telling

open Notifier (Connects)

def start (notifier : Notifier) (world : World) : Telling := ⟨notifier, world, [], []⟩

def step (rt : Runtime) (t : Telling) : TellingEvent → Telling
  | .calls c =>
    let outcome := (c.method rt).run t.notifier t.world
    ⟨outcome.1.2, outcome.2, t.told ++ if outcome.1.1 = .ok true then [(t.world.kernel, c)] else [],
      t.handed ++ outcome.2.kernel.sent.drop t.world.kernel.sent.length⟩
  | .others kernel => { t with world.kernel := kernel }

/-- The message goes to the address, with the call's payload and the files of the
descriptors, and a receiver reads in it what the call stands for. -/
structure Relays (rt : Runtime) (path : Bytes) (call : Kernel × Notification) (message : Message) : Prop where
  peer : message.peer = path
  data : call.2.body rt call.1.pid call.1.clock = .ok message.data
  files : message.files.length = call.2.fds.length
  reads : ∃ pairs, call.2.assignments rt call.1.pid call.1.clock = .ok pairs ∧ Reads message.data pairs

variable {path : Bytes} {t : Telling}

theorem relays_told {c : Notification} {k k' : Kernel} {message : Message}
    (h : Notification.Told rt path c k k' message) : Relays rt path (k, c) message :=
  ⟨h.carries.peer, h.body, h.carries.length_eq.1, Notification.reads_body h.body⟩

theorem sent_of_connects {n n' : Notifier} {k k' : Kernel} (h : Connects path n n' k k') : k'.sent = k.sent := by
  rcases h with ⟨-, rfl⟩ | ⟨-, fd, -, -, rfl⟩
  · rfl
  · rfl

structure Inv (rt : Runtime) (path : Bytes) (t : Telling) : Prop where
  reaches : t.notifier.Reaches path
  relays : List.Forall₂ (Relays rt path) t.told t.handed

theorem Inv.step (h : t.Inv rt path) (event : TellingEvent) : (t.step rt event).Inv rt path := by
  cases event with
  | others kernel => exact ⟨h.reaches, h.relays⟩
  | calls c =>
    have hends : Py.Ends (c.method rt)
        (fun b n k => b = true ∧ n.Reaches path ∧ ∃ message, k.sent = t.world.kernel.sent ++ [message] ∧
          Relays rt path (t.world.kernel, c) message)
        (fun _ n k => n.Reaches path ∧ k.sent = t.world.kernel.sent) t.notifier t.world.kernel := by
      apply Notification.ends_method h.reaches
      · intro n k message hconnects htold
        refine ⟨rfl, hconnects.reaches h.reaches, message, ?_, relays_told htold⟩
        rw [Kernel.post, sent_of_connects hconnects]
      · exact fun _ n k hconnects => ⟨hconnects.reaches h.reaches, sent_of_connects hconnects⟩
    have hpost := hends.run
    rw [Telling.step]
    rcases hrun : (c.method rt).run t.notifier t.world with ⟨⟨result, n⟩, w⟩
    rw [hrun] at hpost
    cases result with
    | ok b =>
      obtain ⟨rfl, hreaches, message, hsent, hrelays⟩ := hpost
      refine ⟨hreaches, ?_⟩
      show List.Forall₂ _ (t.told ++ [(t.world.kernel, c)]) (t.handed ++ w.kernel.sent.drop _)
      rw [show w.kernel.sent = _ from hsent, List.drop_left]
      exact List.rel_append h.relays (.cons hrelays .nil)
    | error e =>
      obtain ⟨hreaches, hsent⟩ := hpost
      refine ⟨hreaches, ?_⟩
      show List.Forall₂ _ (t.told ++ []) (t.handed ++ w.kernel.sent.drop _)
      rw [show w.kernel.sent = _ from hsent, List.drop_length, List.append_nil, List.append_nil]
      exact h.relays

end Telling

/-- Whatever fails and whatever runs in between: the messages a notifier hands
over are those of its calls that returned `True`, in order, and a receiver reads
in each what the call stood for at that moment. -/
theorem notifications_relayed (rt : Runtime) {n : Notifier} {path : Bytes} (hn : n.Reaches path) (w : World)
    (events : List TellingEvent) :
    let t := events.foldl (Telling.step rt) (.start n w)
    List.Forall₂ (Telling.Relays rt path) t.told t.handed :=
  (Runs.invariant (Telling.Inv rt path) ⟨hn, .nil⟩ (fun _ event h => h.step event) events).relays

/-- The second status would start an assignment of its own, and is refused. -/
theorem notifications_relayed_statuses :
    let t := [TellingEvent.calls (.status (.text (str "up"))), .calls (.status (.text (str "x\nREADY=1"))),
      .others storing.kernel, .calls .watchdogPing].foldl (Telling.step .unixPort) (.start connected storing)
    List.Forall₂ (Telling.Relays .unixPort (bytes "/n")) t.told t.handed ∧
      t.handed.map Message.data = [bytes "STATUS=up\n", bytes "WATCHDOG=1\n"] :=
  ⟨notifications_relayed .unixPort connected_reaches storing _, by decide +kernel⟩

end Mpsystemd
