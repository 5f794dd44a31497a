import Wslg.Links
import Wslg.Provider
/-!
# The latest CAPS

Each CAPS message copies its provider name to `m_appProvider`, which keeps what
earlier messages left behind the bytes of the new name. The name ends where the
message ends it if the array happens to end it there.
-/

open Lib Lib.TraceM

namespace Wslg

open Client WSLDVCCallback

variable {W : Type}

/-! ## The end of the name -/

/-- The array has a NUL behind the first `n` bytes; if `n` is odd, the WCHAR that
the last byte falls into has a zero high byte. -/
def NulBehind (a : WCharArray MAX_PATH) (n : Nat) : Prop :=
  ∃ w, a.data[n / 2]? = some w ∧ if Even n then w = 0 else w.toNat < 256

theorem wchar_zero_eq {w : WCHAR} : wchar 0 (UInt8.ofNat (w.toNat / 256)) = 0 ↔ w.toNat < 256 := by
  have hw := w.toNat_lt
  rw [← UInt16.toNat_inj, wchar, read16]
  simp only [leValue, UInt16.toNat_ofNat', UInt8.toNat_ofNat', UInt8.toNat_zero, UInt16.toNat_zero]
  omega

theorem head_behind_iff {a : WCharArray MAX_PATH} {n : Nat} : (behind a.data n).head? = some 0 ↔ NulBehind a n := by
  have hdrop : a.data[n / 2]? = (a.data.drop (n / 2)).head? := List.head?_drop.symm
  rw [behind, NulBehind, hdrop]
  cases a.data.drop (n / 2) with
  | nil => rcases Nat.mod_two_eq_zero_or_one n with hn | hn <;> simp [hn, memcpy]
  | cons w ws =>
    rcases Nat.mod_two_eq_zero_or_one n with hn | hn
    · have he : Even n := Nat.even_iff.2 hn
      simp [hn, he]
    · have ho : ¬ Even n := by rw [Nat.even_iff, hn]; decide
      simp [hn, ho, memcpy, wchar_zero_eq]

/-- A string continues into what is behind it unless one of them ends it. -/
theorem takeWhile_append_eq_iff {ws tail : List WCHAR} (htail : tail ≠ []) :
    (ws ++ tail).takeWhile (· ≠ 0) = ws.takeWhile (· ≠ 0) ↔ (0 : WCHAR) ∈ ws ∨ tail.head? = some 0 := by
  refine ⟨fun h => ?_, takeWhile_append_of_nul⟩
  by_contra hn
  obtain ⟨hws, hhead⟩ := not_or.1 hn
  obtain ⟨w, tail', rfl⟩ := List.exists_cons_of_ne_nil htail
  have hall : ∀ x ∈ ws, decide (x ≠ 0) = true := by
    intro x hx
    rw [decide_eq_true_eq]
    rintro rfl
    exact hws hx
  have hw : decide (w ≠ 0) = true := by simpa using hhead
  rw [List.takeWhile_append_of_pos hall, List.takeWhile_cons, if_pos hw] at h
  have hlen := congrArg List.length h
  have hle := (List.takeWhile_prefix (p := fun x : WCHAR => decide (x ≠ 0)) (l := ws)).length_le
  simp only [List.length_append, List.length_cons] at hlen
  omega

theorem behind_ne_nil {a : WCharArray MAX_PATH} {n : Nat} (h : n < 2 * MAX_PATH) : behind a.data n ≠ [] := by
  have hlen : (behind a.data n).length = MAX_PATH - n / 2 := by
    rw [behind, memcpy_length, List.length_drop, a.size]
  intro hn
  rw [hn, List.length_nil] at hlen
  omega

/-- `m_appProvider` holds the name of the message exactly if the name is ended
within it or right behind it. -/
theorem str_capsProvider_iff {t : WSLDVCCallback} {f : StringField} {name : RAIL_UNICODE_STRING}
    (hname : Readable true name.string) (hfield : t.m_serverCaps.appListProviderName = f.put name.string) :
    (capsProvider t).str = wstring name.string ↔
      (0 : WCHAR) ∈ wchars name.string ∨ NulBehind t.m_appProvider name.string.length := by
  have hlen := hname.1
  rw [RDPAPPLIST_MAX_STRING_SIZE_IN_WCHAR] at hlen
  have htail : behind t.m_appProvider.data name.string.length ≠ [] := by
    refine behind_ne_nil ?_
    rw [MAX_PATH]
    omega
  rw [WCharArray.str, data_capsProvider hname hfield, wstring, takeWhile_append_eq_iff htail, head_behind_iff]

/-! ## What the provider determines -/

/-- From `m` on only messages other than CAPS came. -/
inductive SinceCaps (os : OS W) (m : Machine W) : Machine W → Prop
  | refl : SinceCaps os m m
  | message {s : Reading (Machine W)} : SinceCaps os m s.out → s.Valid →
      (∀ h t, readHeader s = .ok h t → h.cmdId ≠ RDPAPPLIST_CMDID_CAPS) →
      SinceCaps os m (finalState (receive os s)).out

/-- By induction on the messages: the members other than the databases stay. -/
theorem SinceCaps.same {os : OS W} {m m' : Machine W} (h : SinceCaps os m m') : SameOn noDb m.this m'.this := by
  induction h with
  | refl => exact refl_of (SameOn noDb) m.this
  | message _ _ hcaps ih => exact trans_of (SameOn noDb) ih (noDb_receive os hcaps)

/-- The provider, the two folders and the links up to the next CAPS are those of `name`. -/
structure ProviderIs (os : OS W) (name : WString) (m : Machine W) : Prop where
  provider : m.this.m_appProvider.str = name
  folders : ∃ startMenu temp, Folders os name startMenu temp m.this
  links : ∀ s t, SinceCaps os m s.out → OnUpdateAppList os s = .ok ⟨⟩ t →
    ∃ p link, Links [link] s.out.sys t.out.sys ∧ link.args = exeArgsOf name p

theorem providerIs_of_str {os : OS W} {name : WString} {m : Machine W} (hname : m.this.m_appProvider.str = name)
    (hfolders : ∃ startMenu temp, Folders os name startMenu temp m.this) : ProviderIs os name m where
  provider := hname
  folders := hfolders
  links s t hs hok := by
    obtain ⟨p, link, ha⟩ := accepted_update hok
    have hprovider : s.out.this.m_appProvider = m.this.m_appProvider := hs.same.map (·.m_appProvider) fun _ => rfl
    refine ⟨p, link, ha.links, ?_⟩
    rw [ha.args, hprovider, hname]

/-- After a CAPS message that is accepted the provider is the one it named exactly if the
name has a NUL in it, or the old `m_appProvider` has one right behind it. -/
theorem latest_caps_determines (os : OS W) {s t : Reading (Machine W)} (hs : s.Valid) (h : OnCaps os s = .ok ⟨⟩ t) :
    ProviderIs os (providerName s.rest) t.out ↔
      (0 : WCHAR) ∈ wchars (nameBytes s.rest) ∨ NulBehind s.out.this.m_appProvider (nameBytes s.rest).length := by
  obtain ⟨r, hr, -, hprovider, hfolders⟩ := OnCaps_ok h
  obtain ⟨name, f, hbytes, hread, hfield, hold⟩ := readCaps_name hs hr
  have hstr := str_capsProvider_iff hread hfield
  rw [hold, ← hbytes, ← providerName_eq, ← hprovider] at hstr
  rw [← hstr]
  rw [← hprovider] at hfolders
  constructor
  · intro hp
    exact hp.provider
  · intro hname
    exact providerIs_of_str hname (hname ▸ hfolders)

/-! ### On the disk -/

/-- A CAPS message behind its header. -/
def capsArrives (provider : WString) (m : Machine Disk) : Reading (Machine Disk) := .between [] (capsPayload provider) m

/-- A channel of the provider `Ubuntu`. -/
def channelOfUbuntu : Machine Disk := afterMessage (capsMessage (L "Ubuntu")) (.fresh [])

/-- The array is zero behind `Ubuntu`, so that a longer name is taken over as it is. -/
theorem latest_caps_determines_on_disk : channelOfUbuntu.this.m_appProvider.str = L "Ubuntu" ∧
    ∃ t, OnCaps diskOS (capsArrives (L "Debian11") channelOfUbuntu) = .ok ⟨⟩ t ∧
      providerName (capsArrives (L "Debian11") channelOfUbuntu).rest = L "Debian11" ∧
        ProviderIs diskOS (providerName (capsArrives (L "Debian11") channelOfUbuntu).rest) t.out := by
  have hok : succeeded (OnCaps diskOS (capsArrives (L "Debian11") channelOfUbuntu)) = true := by decide +kernel
  obtain ⟨⟨⟩, t, ht⟩ := succeeded_iff.1 hok
  have hnul : NulBehind channelOfUbuntu.this.m_appProvider
      (nameBytes (capsArrives (L "Debian11") channelOfUbuntu).rest).length := head_behind_iff.1 (by decide +kernel)
  exact ⟨by decide +kernel, t, ht, by decide +kernel,
    (latest_caps_determines diskOS (Reading.between_valid _ _ _) ht).2 (.inr hnul)⟩

/-- After `Ubuntu` the name `U` leaves the provider as it was. -/
theorem shorter_name_keeps_the_old : Reachable diskOS anyMessage channelOfUbuntu ∧
    ∃ t, OnCaps diskOS (capsArrives (L "U") channelOfUbuntu) = .ok ⟨⟩ t ∧
      providerName (capsArrives (L "U") channelOfUbuntu).rest = L "U" ∧
      t.out.this.m_appProvider.str = L "Ubuntu" ∧ t.out.this.m_appMenuPath = L "C:\\S\\Programs\\Ubuntu" := by
  have hreach : Reachable diskOS anyMessage channelOfUbuntu :=
    .message (s := arrives (capsMessage (L "Ubuntu")) (.fresh [])) (.fresh []) (Reading.between_valid _ _ _) rfl trivial
  have hok : succeeded (OnCaps diskOS (capsArrives (L "U") channelOfUbuntu)) = true := by decide +kernel
  have hstr : (finalState (OnCaps diskOS (capsArrives (L "U") channelOfUbuntu))).out.this.m_appProvider.str =
      L "Ubuntu" := by decide +kernel
  have hmenu : (finalState (OnCaps diskOS (capsArrives (L "U") channelOfUbuntu))).out.this.m_appMenuPath =
      L "C:\\S\\Programs\\Ubuntu" := by decide +kernel
  obtain ⟨⟨⟩, t, ht⟩ := succeeded_iff.1 hok
  rw [ht, finalState_ok] at hstr hmenu
  exact ⟨hreach, t, ht, by decide +kernel, hstr, hmenu⟩

end Wslg
