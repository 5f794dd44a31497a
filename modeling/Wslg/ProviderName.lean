import Wslg.RoundTrip
/-!
# The name of a provider

The name in a CAPS message goes through two arrays: the one the message is read
to, which ends it with a NUL, and `m_appProvider`, which it is copied to without one.
What an earlier message left there may continue it.
-/

open Lib

namespace Wslg

open Client

/-! ## In the message -/

/-- The WCHARs in some bytes; an odd last byte makes none. -/
def wchars : List BYTE → List WCHAR
  | lo :: hi :: bs => wchar lo hi :: wchars bs
  | _ => []

/-- A string in a message, as a NUL-terminated string. -/
def wstring (body : List BYTE) : WString := (wchars body).takeWhile (· ≠ 0)

/-- The provider name in the payload of a CAPS message: behind the version and the count. -/
def providerName (payload : List BYTE) : WString :=
  wstring ((payload.drop 4).take (read16 ((payload.drop 2).take 2)).toNat)

/-- Its bytes. -/
def nameBytes (payload : List BYTE) : List BYTE :=
  (payload.drop 4).take (read16 ((payload.drop 2).take 2)).toNat

theorem providerName_eq (payload : List BYTE) : providerName payload = wstring (nameBytes payload) := rfl

theorem nameBytes_taken {p : Server.RDPAPPLIST_SERVER_CAPS_PDU} (rst : List BYTE) :
    nameBytes (p.taken ++ rst) = p.appListProviderName.string := by
  have h : p.taken ++ rst = le16 p.version ++ (le16 p.appListProviderName.length ++ (p.appListProviderName.string ++
      ((if 4 ≤ p.version then strBytes p.appListProviderUniqueId.string else []) ++ rst))) := by
    simp only [Server.RDPAPPLIST_SERVER_CAPS_PDU.taken, strBytes, RAIL_UNICODE_STRING.length, List.append_assoc]
  rw [nameBytes, h, List.drop_left' (le16_length _), List.take_left' (le16_length _), read16_le16,
    RAIL_UNICODE_STRING.length_toNat, ← List.append_assoc, List.drop_left' (by simp), List.take_left]

/-- A string copied to an array stands at its start. -/
theorem memcpy_take {ws : List WCHAR} {body : List BYTE} (h : body.length / 2 ≤ ws.length) :
    (memcpy ws body).take (body.length / 2) = wchars body := by
  match ws, body with
  | _, [] => simp [wchars]
  | _, [lo] => simp [wchars]
  | [], lo :: hi :: body =>
    simp only [List.length_cons, List.length_nil] at h
    omega
  | w :: ws, lo :: hi :: body =>
    simp only [List.length_cons] at h ⊢
    rw [show (body.length + 1 + 1) / 2 = body.length / 2 + 1 by omega] at h ⊢
    rw [memcpy, wchars, List.take_succ_cons, memcpy_take (by omega)]

/-- A string that was read stands at the start of its field. -/
theorem take_put {f : StringField} {body : List BYTE} (h : Readable true body) :
    (f.put body).chars.data.take (body.length / 2) = wchars body := by
  have hlen := h.1
  simp only [RDPAPPLIST_MAX_STRING_SIZE_IN_WCHAR] at hlen
  rw [StringField.put, if_neg (h.2 rfl), WCharArray.write, List.take_set_of_le (by omega)]
  refine memcpy_take ?_
  rw [f.chars.size, RDPAPPLIST_MAX_STRING_SIZE_IN_WCHAR]
  omega

theorem takeWhile_append_of_nul {ws tail : List WCHAR} (h : (0 : WCHAR) ∈ ws ∨ tail.head? = some 0) :
    (ws ++ tail).takeWhile (· ≠ 0) = ws.takeWhile (· ≠ 0) := by
  induction ws with
  | nil =>
    obtain ⟨tail', rfl⟩ := List.head?_eq_some_iff.1 (h.resolve_left (by simp))
    simp
  | cons w ws ih =>
    rw [List.cons_append, List.takeWhile_cons, List.takeWhile_cons]
    by_cases hw : w = 0
    · simp [hw]
    · rw [ih (h.imp_left fun h => (List.mem_cons.1 h).resolve_left (Ne.symm hw))]

/-- Its NUL ends it. -/
theorem str_put {f : StringField} {body : List BYTE} (h : Readable true body) : (f.put body).str = wstring body := by
  have hnul := put_terminated (f := f) h fun h0 => absurd h0 (h.2 rfl)
  rw [StringField.str, WCharArray.str, ← List.take_append_drop (body.length / 2) (f.put body).chars.data, take_put h,
    takeWhile_append_of_nul (.inr (by rw [List.head?_drop, hnul])), wstring]

/-! ## In the provider -/

/-- What is left of an array behind `n` bytes, with the byte an odd `n` takes replaced by zero. -/
def behind (ws : List WCHAR) (n : Nat) : List WCHAR := memcpy (ws.drop (n / 2)) (List.replicate (n % 2) 0)

/-- The start of an array copied to another, up to or into a NUL. -/
theorem memcpy_bytesOf {n : Nat} {old ws : List WCHAR} (hk : n < 2 * old.length) (hn : ws[n / 2]? = some 0) :
    memcpy old ((bytesOf ws).take n) = ws.take (n / 2) ++ behind old n := by
  match n, old, ws with
  | 0, old, ws => simp [behind]
  | _, [], _ => simp at hk
  | 1, o :: old, w :: ws =>
    obtain rfl : w = 0 := by simpa using hn
    rfl
  | n + 2, o :: old, w :: ws =>
    simp only [List.length_cons] at hk
    have hhalf : (n + 2) / 2 = n / 2 + 1 := by omega
    rw [hhalf, List.getElem?_cons_succ] at hn
    have hbehind : behind (o :: old) (n + 2) = behind old n := by
      rw [behind, hhalf, List.drop_succ_cons, Nat.add_mod_right, behind]
    obtain ⟨lo, hi, he, hw⟩ : ∃ lo hi, le16 w = [lo, hi] ∧ wchar lo hi = w := ⟨_, _, rfl, read16_le16 w⟩
    rw [hbehind, hhalf, bytesOf_cons, he, List.cons_append, List.cons_append, List.nil_append, List.take_succ_cons,
      List.take_succ_cons, memcpy, hw, memcpy_bytesOf (by omega) hn, List.take_succ_cons, List.cons_append]

/-- The message's name over what is in `m_appProvider`. -/
def capsProvider (t : WSLDVCCallback) : WCharArray MAX_PATH :=
  (t.m_appProvider.copy (fieldBytes t.m_serverCaps.appListProviderName)).getD t.m_appProvider

theorem copy_capsProvider (t : WSLDVCCallback) :
    t.m_appProvider.copy (fieldBytes t.m_serverCaps.appListProviderName) = some (capsProvider t) := by
  have h := fieldBytes_length_le t.m_serverCaps.appListProviderName
  rw [capsProvider, WCharArray.copy, if_pos (by simp only [MAX_PATH]; omega)]
  rfl

/-- The name arrives in `m_appProvider`, over what was there. -/
theorem data_capsProvider {t : WSLDVCCallback} {f : StringField} {name : RAIL_UNICODE_STRING}
    (hname : Readable true name.string) (hfield : t.m_serverCaps.appListProviderName = f.put name.string) :
    (capsProvider t).data = wchars name.string ++ behind t.m_appProvider.data name.string.length := by
  have hlen := hname.1
  have hne : name.string ≠ [] := hname.2 rfl
  simp only [RDPAPPLIST_MAX_STRING_SIZE_IN_WCHAR] at hlen
  have hdata : (capsProvider t).data = memcpy t.m_appProvider.data (fieldBytes (f.put name.string)) := by
    have h := copy_capsProvider t
    rw [hfield, WCharArray.copy, Option.ite_none_right_eq_some] at h
    exact congrArg WCharArray.data (Option.some.inj h.2).symm
  have hnul := put_terminated (f := f) hname fun h => absurd h hne
  have hsize : name.string.length < 2 * t.m_appProvider.data.length := by
    rw [t.m_appProvider.size, MAX_PATH]
    omega
  rw [hdata, fieldBytes, put_length, name.length_toNat, memcpy_bytesOf hsize hnul, take_put hname]

/-- The provider once the bytes of a name are copied over it. -/
def nameOver (t : WSLDVCCallback) (name : List BYTE) : WString :=
  (wchars name ++ behind t.m_appProvider.data name.length).takeWhile (· ≠ 0)

theorem str_capsProvider_over {t : WSLDVCCallback} {f : StringField} {name : RAIL_UNICODE_STRING}
    (hname : Readable true name.string) (hfield : t.m_serverCaps.appListProviderName = f.put name.string) :
    (capsProvider t).str = nameOver t name.string := by
  rw [WCharArray.str, data_capsProvider hname hfield, nameOver]

theorem head_behind_zero (n : Nat) {k : Nat} (h : n / 2 < k) : (behind (List.replicate k 0) n).head? = some 0 := by
  obtain ⟨j, hj⟩ : ∃ j, k - n / 2 = j + 1 := ⟨k - n / 2 - 1, by omega⟩
  rw [behind, List.drop_replicate, hj, List.replicate_succ]
  rcases Nat.mod_two_eq_zero_or_one n with hn | hn
  · rw [hn]
    rfl
  · rw [hn]
    rfl

/-- On a fresh channel the name ends where the message ends it. -/
theorem str_capsProvider {t : WSLDVCCallback} {f : StringField} {name : RAIL_UNICODE_STRING}
    (hname : Readable true name.string) (hfield : t.m_serverCaps.appListProviderName = f.put name.string)
    (hclear : t.m_appProvider = .zero _) : (capsProvider t).str = wstring name.string := by
  have hlen := hname.1
  simp only [RDPAPPLIST_MAX_STRING_SIZE_IN_WCHAR] at hlen
  have hhead : (behind t.m_appProvider.data name.string.length).head? = some 0 := by
    rw [hclear]
    refine head_behind_zero _ ?_
    rw [MAX_PATH]
    omega
  rw [WCharArray.str, data_capsProvider hname hfield, takeWhile_append_of_nul (.inr hhead), wstring]

end Wslg
