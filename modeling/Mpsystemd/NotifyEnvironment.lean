import Mpsystemd.Environment
import Mpsystemd.KernelRules
import Mpsystemd.Notifier
import Mpsystemd.SocketAddress

/-! `notify_available` and the notifier, for any bytes that systemd puts into
`NOTIFY_SOCKET`. -/

namespace Mpsystemd

variable {σ : Type}

def PyErr.IsAddressError : PyErr → Prop
  | addressError _ _ => True
  | _ => False

namespace Daemon

def notifyAvailable : Py σ Bool := do
  match (← getenv notifySocketEnv).filter (· ≠ []) with
  | none => return false
  | some address =>
    match encodeUnixAddress (.text address) with
    | .ok _ => return true
    | .error (.addressError _ _) => return false
    | .error e => Method.raise e

end Daemon

/-- The world with the bytes as the value of the variable, which CPython decodes. -/
def World.presenting (w : World) (value : Bytes) : World :=
  { w with kernel := { w.kernel with env := Function.update w.kernel.env notifySocketEnv (some (fsdecode value)) } }

@[simp] theorem World.presenting_env (w : World) (value : Bytes) :
    (w.presenting value).kernel.env notifySocketEnv = some (fsdecode value) := by
  simp [World.presenting]

theorem isAddressError_of_bytes {raw : Bytes} {e : PyErr} (h : encodeUnixAddress (.bytes raw) = .error e) :
    e.IsAddressError := by
  have hlimited : ∀ {length limit : Nat} {text : String} {args : List Value} {sunPath : Bytes},
      (if limit < length then .error (.addressError text args) else .ok sunPath) = (.error e : Except PyErr Bytes) →
        e.IsAddressError := by
    intro length limit text args sunPath hresult
    split at hresult
    · cases hresult
      trivial
    · cases hresult
  cases raw with
  | nil =>
    cases h
    trivial
  | cons b rest =>
    by_cases hb : b = 0 ∨ b = 0x40
    · rw [encodeUnixAddress_abstract hb] at h
      exact hlimited h
    · by_cases hpath : b = 0x2F
      · rw [hpath, encodeUnixAddress_absolute] at h
        exact hlimited h
      · obtain ⟨text, args, hother⟩ := @encodeUnixAddress_other b rest hb hpath
        rw [hother] at h
        cases h
        trivial

/-! The variable, read. -/

section Read

variable {text : Str} {raw : Bytes}

theorem ofAddress_available_iff (hraw : encodeUtf8 text = .ok raw) :
    (∃ n, Notifier.ofAddress (some (.text text)) = .ok n ∧ n.available = true) ↔ AddressFits raw := by
  have hempty : text = [] → raw = [] := by
    rintro rfl
    cases hraw
    rfl
  by_cases hnil : text = []
  · have hnone : Notifier.ofAddress (some (.text text)) = .ok ⟨none, none, none⟩ := by
      rw [hnil]
      rfl
    rw [hnone, hempty hnil]
    refine iff_of_false ?_ (by decide)
    rintro ⟨n, hn, havailable⟩
    cases hn
    cases havailable
  · have hsome : Notifier.ofAddress (some (.text text)) =
        (do return ⟨some (.text text), some (← encodeUnixAddress (.bytes raw)), none⟩) := by
      rw [Notifier.ofAddress, Option.filter_some_pos (by simpa using hnil), ← encodeUnixAddress_text hraw]
    rw [hsome]
    constructor
    · rintro ⟨n, hn, -⟩
      obtain ⟨sunPath, hsunPath, -⟩ := Fallible.bind_eq_ok.mp hn
      exact (encodeUnixAddress_bytes_iff.mp hsunPath).1
    · intro hfits
      rw [encodeUnixAddress_bytes_iff.mpr ⟨hfits, rfl⟩]
      exact ⟨_, rfl, rfl⟩

theorem does_newNotifier {value : Option Str} {s : σ} {k : Kernel} (hvalue : k.env notifySocketEnv = value) :
    Py.Does (Notifier.new none) (Notifier.ofAddress (value.map .text)) k s k := by
  subst hvalue
  exact (Py.does_getenv.bind Py.does_pure).bind Py.does_lift

theorem does_notifyAvailable {s : σ} {k : Kernel} (hvalue : k.env notifySocketEnv = some text)
    (hraw : encodeUtf8 text = .ok raw) :
    Py.Does Daemon.notifyAvailable (.ok (decide (AddressFits raw))) k s k := by
  refine Py.does_getenv.bind ?_
  rw [hvalue]
  by_cases hnil : text = []
  · subst hnil
    cases hraw
    exact Py.does_pure
  · rw [Option.filter_some_pos (by simpa using hnil)]
    simp only [encodeUnixAddress_text hraw]
    cases hencode : encodeUnixAddress (.bytes raw) with
    | ok sunPath =>
      rw [decide_eq_true (encodeUnixAddress_bytes_iff.mp hencode).1]
      exact Py.does_pure
    | error e =>
      have hrefused : ¬ AddressFits raw := by
        intro hfits
        rw [encodeUnixAddress_bytes_iff.mpr ⟨hfits, rfl⟩] at hencode
        cases hencode
      rw [decide_eq_false hrefused]
      cases e with
      | addressError text args => exact Py.does_pure
      | _ => exact (isAddressError_of_bytes hencode).elim

end Read

namespace Daemon

/-- For a value of the variable `notify_available` never raises and says whether
a notifier made of it has an address, which is refused with an `AddressError` or
becomes the bytes of the value. -/
structure Predicts (σ : Type) (value : Bytes) : Prop where
  answers : ∀ (s : σ) (w : World), ∃ available,
    ((notifyAvailable : Py σ Bool).run s (w.presenting value)).1.1 = .ok available
  predicts : ∀ (s : σ) (w : World), ((notifyAvailable : Py σ Bool).run s (w.presenting value)).1.1 = .ok true ↔
    ∃ n, ((Notifier.new none : Py σ Notifier).run s (w.presenting value)).1.1 = .ok n ∧ n.available = true
  refused : ∀ e, encodeUnixAddress (.text (fsdecode value)) = .error e → e.IsAddressError
  encoded : ∀ sunPath, encodeUnixAddress (.text (fsdecode value)) = .ok sunPath → sunPath = prefixed value

theorem predicts_of_utf8 {value : Bytes} (h : encodeUtf8 (fsdecode value) = .ok value) : Predicts σ value := by
  have hanswer : ∀ (s : σ) (w : World), ((notifyAvailable : Py σ Bool).run s (w.presenting value)).1.1 =
      .ok (decide (AddressFits value)) := by
    intro s w
    rw [(does_notifyAvailable (w.presenting_env value) h).run.1]
  refine ⟨fun s w => ⟨_, hanswer s w⟩, fun s w => ?_, fun e he => ?_, fun sunPath hsunPath => ?_⟩
  · have hnew : ((Notifier.new none : Py σ Notifier).run s (w.presenting value)).1.1 =
        Notifier.ofAddress (some (.text (fsdecode value))) := by
      rw [(does_newNotifier (w.presenting_env value)).run.1]
      rfl
    rw [hanswer, hnew, ofAddress_available_iff h, Except.ok.injEq, decide_eq_true_iff]
  · rw [encodeUnixAddress_text h] at he
    exact isAddressError_of_bytes he
  · rw [encodeUnixAddress_text h] at hsunPath
    exact (encodeUnixAddress_bytes_iff.mp hsunPath).2.symm

/-- `notify_available` predicts the notifier for the values that are UTF-8. -/
theorem notifyAvailable_predicts_iff (σ : Type) (value : Bytes) :
    Predicts σ value ↔ ∃ text, decodeUtf8 value = .ok text := by
  constructor
  · intro h
    rw [← encodable_fsdecode_iff]
    rcases Fallible.isOk_or_isError (encodeUtf8 (fsdecode value)) with hok | ⟨e, he⟩
    · exact hok
    · -- The codec raises before the address is looked at.
      have hencode : encodeUnixAddress (.text (fsdecode value)) = .error e := by
        rw [encodeUnixAddress_eq, StrOrBytes.encode, he]
        rfl
      have haddress := h.refused e hencode
      rw [encodeUtf8_error he] at haddress
      exact haddress.elim
  · rintro ⟨text, htext⟩
    have hencode := encodeUtf8_of_decodeUtf8 htext
    rw [← fsdecode_of_decodeUtf8 htext] at hencode
    exact predicts_of_utf8 hencode

def latin : Bytes := bytes "/run/" ++ [0xFF]

def startup : World := ⟨.bare, fun _ => ⟨none, 0, 0, 0, 0⟩⟩

/-- Of a value that is not UTF-8 the codec makes an error that `notify_available`
does not catch. -/
theorem latin_raises :
    ((notifyAvailable : Py Unit Bool).run () (startup.presenting latin)).1.1 = .error .unicodeError ∧
      ¬ Predicts Unit latin := by
  have hraises : ((notifyAvailable : Py Unit Bool).run () (startup.presenting latin)).1.1 =
      .error .unicodeError := rfl
  refine ⟨hraises, fun h => ?_⟩
  obtain ⟨available, hanswers⟩ := h.answers () startup
  rw [hraises] at hanswers
  cases hanswers

end Daemon

end Mpsystemd
