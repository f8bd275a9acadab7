import Mpsystemd.Notifications
import Mpsystemd.NotifyEnvironment

/-! What one notification does, of a notifier or of a module level function. -/

namespace Mpsystemd

/-- A notification that returned `True`, with the notifier that made it and the
kernel it met. -/
structure Notice where
  notifier : Notifier
  kernel : Kernel
  notification : Notification

/-- The files that the notification's descriptors stood for. A number that was free
may be the one the notifier's socket has got. -/
def Notice.Attached (rt : Runtime) (notice : Notice) (files : List File) : Prop :=
  ∃ rights, UnixDatagram.rights rt notice.notification.fds = .ok rights ∧
    List.Forall₂ (fun fd file => notice.kernel.fileAt fd = some file ∨
      notice.kernel.table fd = none ∧ file = .socket) rights files

/-- The message goes to the notifier's address, with the files that the descriptors
stood for, and a receiver reads in it what the notification stands for. -/
structure Notice.Relays (rt : Runtime) (notice : Notice) (message : Message) : Prop where
  few : message.files.length ≤ maxFdsPerMessage
  files : notice.Attached rt message.files
  reads : ∃ path, notice.notifier.sunPath = some path ∧
    Telling.Relays rt path (notice.kernel, notice.notification) message

namespace Notifier

/-- It has no address, or its socket reaches the one it has. -/
def Addressed (n : Notifier) : Prop := n.sunPath = none ∨ ∃ path, n.Reaches path

/-- The notifier is as it was, or has got its first socket. -/
def Sockets (n n' : Notifier) (table table' : Fd → Option Descriptor) : Prop :=
  n' = n ∧ table' = table ∨
    n.sock = none ∧ ∃ (fd : Nat) (peer : Option Bytes), table fd = none ∧ n'.sock = some ⟨fd, peer⟩ ∧
      table' = Function.update table fd (some ⟨.socket, true⟩)

end Notifier

/-- What a notification does, `told` when it returns `True`. -/
structure Notified (rt : Runtime) (notice : Notice) (told : Prop) (n' : Notifier) (k' : Kernel) : Prop where
  addressed : n'.Addressed
  sockets : notice.notifier.Sockets n' notice.kernel.table k'.table
  inboxes : k'.inboxes = notice.kernel.inboxes
  closes : k'.closes = notice.kernel.closes
  sent : told → ∃ message, k'.sent = notice.kernel.sent ++ [message] ∧ notice.Relays rt message
  silent : ¬ told → k'.sent = notice.kernel.sent

section Notifiers

variable {rt : Runtime} {n : Notifier} {k : Kernel} {c : Notification}

theorem Notifier.sockets_of_connects {path : Bytes} {n' : Notifier} {k' : Kernel}
    (h : Notifier.Connects path n n' k k') :
    n.Sockets n' k.table k'.table ∧ k'.inboxes = k.inboxes ∧ k'.closes = k.closes ∧ k'.sent = k.sent := by
  rcases h with ⟨rfl, rfl⟩ | ⟨hsock, fd, hfree, rfl, rfl⟩
  · exact ⟨.inl ⟨rfl, rfl⟩, rfl, rfl, rfl⟩
  · exact ⟨.inr ⟨hsock, fd, some path, hfree.2, rfl, rfl⟩, rfl, rfl, rfl⟩

theorem files_of_connects {path : Bytes} {n' : Notifier} {k' : Kernel} (h : Notifier.Connects path n n' k k')
    {rights : List Fd} {files : List File} (hfiles : rights.mapM k'.fileAt = some files) :
    List.Forall₂ (fun fd file => k.fileAt fd = some file ∨ k.table fd = none ∧ file = .socket) rights files := by
  have hone : ∀ fd file, k'.fileAt fd = some file →
      k.fileAt fd = some file ∨ k.table fd = none ∧ file = .socket := by
    intro fd file hfile
    rcases h with ⟨-, rfl⟩ | ⟨-, new, hfree, -, rfl⟩
    · exact .inl hfile
    · rw [Kernel.fileAt_install] at hfile
      split at hfile
      · next heq =>
        cases hfile
        exact .inr ⟨heq ▸ hfree.2, rfl⟩
      · exact .inl hfile
  induction rights generalizing files with
  | nil =>
    cases hfiles
    exact .nil
  | cons right rights ih =>
    simp only [List.mapM_cons, Option.bind_eq_bind, Option.bind_eq_some_iff] at hfiles
    obtain ⟨file, hfile, rest, hrest, hcons⟩ := hfiles
    cases hcons
    exact .cons (hone right file hfile) (ih hrest)

theorem ends_notified (hn : n.Addressed) :
    Py.Ends (c.method rt) (fun b n' k' => Notified rt ⟨n, k, c⟩ ((.ok b : Except PyErr Bool) = .ok true) n' k')
      (fun e n' k' => Notified rt ⟨n, k, c⟩ ((.error e : Except PyErr Bool) = .ok true) n' k') n k := by
  rcases hn with hnone | ⟨path, hreaches⟩
  · have hkept : ∀ told : Prop, ¬ told → Notified rt ⟨n, k, c⟩ told n k := fun told hnot =>
      ⟨.inl hnone, .inl ⟨rfl, rfl⟩, rfl, rfl, fun htold => absurd htold hnot, fun _ => rfl⟩
    exact Notification.ends_method_unset hnone (hkept _ (by simp)) fun e => hkept _ (by simp)
  · apply Notification.ends_method hreaches
    · intro n' k' message hconnects htold
      obtain ⟨hsockets, hinboxes, hcloses, hsent⟩ := Notifier.sockets_of_connects hconnects
      refine ⟨.inr ⟨path, hconnects.reaches hreaches⟩, hsockets, hinboxes, hcloses, fun _ => ⟨message, ?_, ?_⟩,
        fun hnot => absurd rfl hnot⟩
      · rw [← hsent]
        rfl
      · obtain ⟨rights, hrights, hfiles⟩ := htold.carries.files
        exact ⟨htold.carries.length_eq.2, ⟨rights, hrights, files_of_connects hconnects hfiles⟩,
          path, hreaches.sunPath, Telling.relays_told htold⟩
    · intro e n' k' hconnects
      obtain ⟨hsockets, hinboxes, hcloses, hsent⟩ := Notifier.sockets_of_connects hconnects
      exact ⟨.inr ⟨path, hconnects.reaches hreaches⟩, hsockets, hinboxes, hcloses, fun htold => by simp at htold,
        fun _ => hsent⟩

end Notifiers

/-! The module level functions. -/

section Functions

variable {σ : Type} {rt : Runtime} {k : Kernel}

/-- The module level function of the notification. -/
def Notification.function (rt : Runtime) : Notification → Py σ Bool
  | notify states fields => Daemon.notify rt states fields
  | ready text => Daemon.ready rt text
  | stopping text => Daemon.stopping rt text
  | reloading text => Daemon.reloading rt text
  | status text => Daemon.status rt text
  | errno value => withNotifier rt do Notifier.errno rt (← Method.lift value)
  | mainPid none => Daemon.mainPid rt none
  | mainPid (some pid) => withNotifier rt do Notifier.mainPid rt (some (← Method.lift pid))
  | extendTimeout usec => withNotifier rt do Notifier.extendTimeout rt (← Method.lift usec)
  | watchdogPing => Daemon.watchdogPing rt
  | watchdogTrigger => Daemon.watchdogTrigger rt
  | fdstore fds name poll => Daemon.fdstore rt fds name poll
  | fdstoreRemove name => Daemon.fdstoreRemove rt name

theorem Notification.function_eq (c : Notification) :
    (c.function rt : Py σ Bool) = withNotifier rt (c.method rt) := by
  cases c with
  | mainPid pid =>
    cases pid with
    | none => rfl
    | some pid => rfl
  | _ => rfl

/-- What the function does, `told` when it returns `True`: the descriptors are as
before. -/
structure Called (rt : Runtime) (k : Kernel) (c : Notification) (told : Prop) (k' : Kernel) : Prop where
  table : k'.table = k.table
  inboxes : k'.inboxes = k.inboxes
  missed : k'.closes.count none = k.closes.count none
  sent : told → ∃ n message, Notifier.ofAddress ((k.env notifySocketEnv).map .text) = .ok n ∧
    k'.sent = k.sent ++ [message] ∧ Notice.Relays rt ⟨n, k, c⟩ message
  silent : ¬ told → k'.sent = k.sent

/-- The close of a notifier that may have got its socket since. -/
theorem Notifier.ends_close_connects {path : Bytes} {n n' : Notifier} {k' k'' : Kernel} (hsock : n.sock = none)
    (hconnects : Connects path n n' k k') (htable : k''.table = k'.table)
    {ok : Unit → Notifier → Kernel → Prop} {err : PyErr → Notifier → Kernel → Prop}
    (hok : ∀ n₃ k₃, k₃.table = k.table → k₃.inboxes = k''.inboxes → k₃.sent = k''.sent →
      k₃.closes.count none = k''.closes.count none → ok () n₃ k₃) : Py.Ends (close rt) ok err n' k'' := by
  rcases hconnects with ⟨rfl, rfl⟩ | ⟨-, fd, hfree, rfl, rfl⟩
  · apply ends_close
    · exact fun _ => hok n' k'' htable rfl rfl rfl
    · intro sock hsome
      cases hsock.symm.trans hsome
  · rw [Kernel.install_table] at htable
    apply ends_close
    · intro hnone
      cases hnone
    · intro sock hsome
      cases hsome
      refine ⟨Int.natCast_nonneg fd, .socket, by simp [Kernel.fileAt, htable], ?_⟩
      apply hok
      · show Function.update k''.table fd none = k.table
        rw [htable, Function.update_idem, Function.update_eq_self_iff, hfree.2]
      · rfl
      · rfl
      · simp [Kernel.shut, List.count_append]

theorem ends_function (c : Notification) (s : σ) :
    Py.Ends (c.function rt) (fun b _ k' => Called rt k c ((.ok b : Except PyErr Bool) = .ok true) k')
      (fun e _ k' => Called rt k c ((.error e : Except PyErr Bool) = .ok true) k') s k := by
  have hsilent : ∀ (told : Prop) (k' : Kernel), ¬ told → k'.table = k.table → k'.inboxes = k.inboxes →
      k'.sent = k.sent → k'.closes.count none = k.closes.count none → Called rt k c told k' :=
    fun told k' hnot htable hinboxes hsent hmissed =>
      ⟨htable, hinboxes, hmissed, fun htold => absurd htold hnot, fun _ => hsent⟩
  rw [Notification.function_eq, withNotifier]
  refine Method.obeys_bind.mpr ((does_newNotifier rfl).mono ?_ ?_)
  · rintro n s₁ k₁ ⟨hn, hs, hk⟩
    rw [hs, hk]
    have hsock := Notifier.sock_ofAddress hn
    have hquiet : ∀ (told : Prop) {path : Bytes} {n' : Notifier} {k' : Kernel}, ¬ told →
        Notifier.Connects path n n' k k' → Py.Ends (Notifier.close rt) (fun _ _ k₃ => Called rt k c told k₃)
          (fun e _ k₃ => Called rt k c ((.error e : Except PyErr Bool) = .ok true) k₃) n' k' := by
      intro told path n' k' hnot hconnects
      obtain ⟨-, hinboxes, hcloses, hsent⟩ := Notifier.sockets_of_connects hconnects
      apply Notifier.ends_close_connects hsock hconnects rfl
      intro n₃ k₃ htable hinboxes₃ hsent₃ hmissed₃
      exact hsilent _ _ hnot htable (hinboxes₃.trans hinboxes) (hsent₃.trans hsent)
        (hmissed₃.trans (by rw [hcloses]))
    refine Method.obeys_zoom.mpr (Method.obeys_ensuring.mpr ?_)
    cases hpath : n.sunPath with
    | none =>
      have hrefl : Notifier.Connects [] n n k k := .refl
      apply Notification.ends_method_unset hpath
      · exact hquiet _ (by simp) hrefl
      · exact fun e => hquiet _ (by simp) hrefl
    | some path =>
      have hreaches := Notifier.reaches_ofAddress hn hpath
      apply Notification.ends_method hreaches
      · intro n' k' message hconnects htold
        obtain ⟨-, hinboxes, hcloses, hsent⟩ := Notifier.sockets_of_connects hconnects
        obtain ⟨rights, hrights, hfiles⟩ := htold.carries.files
        have hrelays : Notice.Relays rt ⟨n, k, c⟩ message :=
          ⟨htold.carries.length_eq.2, ⟨rights, hrights, files_of_connects hconnects hfiles⟩,
            path, hpath, Telling.relays_told htold⟩
        have htable : (k'.post message).table = k'.table := rfl
        apply Notifier.ends_close_connects hsock hconnects htable
        intro n₃ k₃ htable₃ hinboxes₃ hsent₃ hmissed₃
        refine ⟨htable₃, hinboxes₃.trans hinboxes, hmissed₃.trans (by rw [← hcloses]; rfl), fun _ => ?_, ?_⟩
        · refine ⟨n, message, hn, ?_, hrelays⟩
          rw [hsent₃, ← hsent]
          rfl
        · exact fun hnot => absurd rfl hnot
      · exact fun e n' k' hconnects => hquiet _ (by simp) hconnects
  · rintro e s₁ k₁ ⟨-, -, hk⟩
    rw [hk]
    exact hsilent _ _ (by simp) rfl rfl rfl rfl

end Functions

end Mpsystemd
