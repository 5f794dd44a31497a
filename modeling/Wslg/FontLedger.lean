import Wslg.FontRules
import Wslg.Lib.History
/-!
# The font path is accounted for

What `xset` has put into the font path and not taken out again are the paths of the
tracked folders whose flag is set. A folder outside the map is in the font path only
while it is made or destroyed.
-/

open Lib

namespace Wslg.Wslgd.Operations

/-! ## The font path -/

def FontEvent.post (fontPath : List CharString) : FontEvent → List CharString
  | .xset (.fp true path) true => path :: fontPath
  | .xset (.fp false path) true => fontPath.filter (· ≠ path)
  | _ => fontPath

def FontEvent.succeeds : FontEvent → Bool
  | .xset _ success => success
  | _ => true

/-- What the monitor has put into the font path, and how often. -/
def fontPathOf (trace : List FontEvent) : List CharString := trace.foldl FontEvent.post []

/-- `xset -fp` of a path that is there succeeds. -/
def RemovesPresent (trace : List FontEvent) : Prop :=
  EveryAt (fun before e _ => ∀ path, e = .xset (.fp false path) false → path ∉ fontPathOf before) trace

theorem RemovesPresent.left {trace ext : List FontEvent} (h : RemovesPresent (trace ++ ext)) : RemovesPresent trace :=
  (everyAt_append.1 h).1

theorem fontPathOf_append (trace ext : List FontEvent) :
    fontPathOf (trace ++ ext) = ext.foldl FontEvent.post (fontPathOf trace) := List.foldl_append

/-- Each of these paths once, and no other. -/
structure Lists (fontPath : List CharString) (listed : CharString → Prop) : Prop where
  nodup : fontPath.Nodup
  mem : ∀ path, path ∈ fontPath ↔ listed path

theorem Lists.congr {fontPath : List CharString} {listed listed' : CharString → Prop} (h : Lists fontPath listed)
    (heq : ∀ path, listed path ↔ listed' path) : Lists fontPath listed' :=
  ⟨h.nodup, fun path => (h.mem path).trans (heq path)⟩

/-! ## One folder -/

/-- The paths of the other folders, and that of this one if its flag is set. -/
def With (others : CharString → Prop) (f : FontFolder) (path : CharString) : Prop :=
  others path ∨ (path = f.m_path ∧ f.m_isPathAdded = true)

theorem with_unflagged {others : CharString → Prop} {f : FontFolder} (hf : f.m_isPathAdded = false) (path : CharString) :
    With others f path ↔ others path := by
  simp [With, hf]

section Folder

variable {others : CharString → Prop} {f f' : FontFolder} {isAdd : Bool} {path : CharString} {trace ext : List FontEvent}

theorem Modified.lists (h : Modified f isAdd f' ext) (hothers : ¬ others f.m_path)
    (hremoves : RemovesPresent (trace ++ ext)) (hs : Lists (fontPathOf trace) (With others f)) :
    Lists (fontPathOf (trace ++ ext)) (With others f') := by
  cases h with
  | same heq => rwa [List.append_nil]
  | failed hne => cases isAdd <;> rwa [fontPathOf_append]
  | done success hne =>
    rw [fontPathOf_append]
    cases isAdd with
    | true =>
      have hunflagged : f.m_isPathAdded = false := by simpa using hne
      have hs := hs.congr (with_unflagged hunflagged)
      refine ⟨List.nodup_cons.2 ⟨fun hmem => hothers ((hs.mem _).1 hmem), hs.nodup⟩, ?_⟩
      intro p
      change p ∈ f.m_path :: fontPathOf trace ↔ others p ∨ (p = f.m_path ∧ true = true)
      rw [List.mem_cons, hs.mem, or_comm, and_iff_left rfl]
    | false =>
      refine ⟨hs.nodup.filter _, ?_⟩
      intro p
      change p ∈ (fontPathOf trace).filter _ ↔ _
      rw [with_unflagged rfl, List.mem_filter, hs.mem, decide_eq_true_eq]
      constructor
      · rintro ⟨hp | ⟨rfl, -⟩, hne⟩
        · exact hp
        · exact (hne rfl).elim
      · intro hp
        exact ⟨.inl hp, fun heq => hothers (heq ▸ hp)⟩

/-- What is there is taken out. -/
theorem Modified.unflagged (h : Modified f false f' ext) (hremoves : RemovesPresent (trace ++ ext))
    (hs : Lists (fontPathOf trace) (With others f)) : f'.m_isPathAdded = false := by
  cases h with
  | same heq => exact heq
  | failed hne =>
    have hmem : f.m_path ∈ fontPathOf trace := (hs.mem _).2 (.inr ⟨rfl, by simpa using hne⟩)
    exact (hremoves.at _ rfl hmem).elim
  | done success hne => rfl

theorem Modified.gone (h : Modified f false f' ext) (hothers : ¬ others f.m_path)
    (hremoves : RemovesPresent (trace ++ ext)) (hs : Lists (fontPathOf trace) (With others f)) :
    Lists (fontPathOf (trace ++ ext)) others :=
  (h.lists hothers hremoves hs).congr (with_unflagged (h.unflagged hremoves hs))

theorem Added.lists (h : Added path f ext) (hothers : ¬ others path) (hremoves : RemovesPresent (trace ++ ext))
    (hs : Lists (fontPathOf trace) others) : Lists (fontPathOf (trace ++ ext)) (With others f) := by
  have hfresh : Lists (fontPathOf trace) (With others (.fresh path)) :=
    hs.congr fun p => (with_unflagged rfl p).symm
  cases h with
  | unreadable => rwa [List.append_nil]
  | readable hmodified => exact hmodified.lists hothers hremoves hfresh

theorem Made.lists (h : Made path f ext) (hothers : ¬ others path) (hremoves : RemovesPresent (trace ++ ext))
    (hs : Lists (fontPathOf trace) others) : Lists (fontPathOf (trace ++ ext)) (With others f) := by
  cases h with
  | unwatched hadded => exact hadded.lists hothers hremoves hs
  | watched fd wd hadded hlt =>
    rw [← List.append_assoc] at hremoves ⊢
    rw [fontPathOf_append]
    exact hadded.lists hothers hremoves.left hs

end Folder

/-! ## The tracked folders -/

/-- The paths of the folders whose flag is set. -/
def Flagged (folders : Folders) (path : CharString) : Prop :=
  ∃ f ∈ folders.elems, f.m_path = path ∧ f.m_isPathAdded = true

section Flagged

variable {folders : Folders} {f f' : FontFolder} {path : CharString}

theorem not_flagged_of_find (h : folders.find path = none) : ¬ Flagged folders path := by
  rintro ⟨f, hf, rfl, -⟩
  rw [KeyedSet.find_eq_some.2 ⟨hf, rfl⟩] at h
  cases h

theorem not_flagged_erase : ¬ Flagged (folders.erase path) path :=
  not_flagged_of_find (by rw [KeyedSet.find_erase, if_pos rfl])

theorem flagged_insert (h : folders.find f.m_path = none) (p : CharString) :
    With (Flagged folders) f p ↔ Flagged (folders.insert f) p := by
  simp only [With, Flagged, KeyedSet.mem_insert]
  constructor
  · rintro (⟨g, hg, hp⟩ | ⟨rfl, hadded⟩)
    · exact ⟨g, .inl hg, hp⟩
    · exact ⟨f, .inr ⟨rfl, h⟩, rfl, hadded⟩
  · rintro ⟨g, hg | ⟨rfl, -⟩, rfl, hadded⟩
    · exact .inl ⟨g, hg, rfl, hadded⟩
    · exact .inr ⟨rfl, hadded⟩

theorem flagged_erase (h : folders.find path = some f) (p : CharString) :
    Flagged folders p ↔ With (Flagged (folders.erase path)) f p := by
  obtain ⟨hf, rfl⟩ := KeyedSet.find_eq_some.1 h
  simp only [With, Flagged, KeyedSet.mem_erase]
  constructor
  · rintro ⟨g, hg, rfl, hadded⟩
    by_cases hkey : g.m_path = f.m_path
    · exact .inr ⟨hkey, KeyedSet.eq_of_key hg hf hkey ▸ hadded⟩
    · exact .inl ⟨g, ⟨hg, hkey⟩, rfl, hadded⟩
  · rintro (⟨g, ⟨hg, -⟩, hp⟩ | ⟨rfl, hadded⟩)
    · exact ⟨g, hg, hp⟩
    · exact ⟨f, hf, rfl, hadded⟩

theorem flagged_update (h : folders.find f'.m_path = some f) (p : CharString) :
    With (Flagged (folders.erase f'.m_path)) f' p ↔ Flagged (folders.update f') p := by
  obtain ⟨hf, hkey⟩ := KeyedSet.find_eq_some.1 h
  have hthere : f'.m_path ∈ folders.keys := hkey ▸ List.mem_map_of_mem hf
  simp only [With, Flagged, KeyedSet.mem_erase, KeyedSet.mem_update]
  constructor
  · rintro (⟨g, hg, hp⟩ | ⟨rfl, hadded⟩)
    · exact ⟨g, .inr hg, hp⟩
    · exact ⟨f', .inl ⟨rfl, hthere⟩, rfl, hadded⟩
  · rintro ⟨g, ⟨rfl, -⟩ | hg, rfl, hadded⟩
    · exact .inr ⟨rfl, hadded⟩
    · exact .inl ⟨g, hg, rfl, hadded⟩

end Flagged

/-! ## Every run -/

/-- As long as `xset -fp` does its part. -/
def Accounted (folders : Folders) (trace : List FontEvent) : Prop :=
  RemovesPresent trace → Lists (fontPathOf trace) (Flagged folders)

theorem accounted_other {folders : Folders} {trace : List FontEvent} {e : FontEvent}
    (he : e.post (fontPathOf trace) = fontPathOf trace) (h : Accounted folders trace) : Accounted folders (trace ++ [e]) := by
  intro hremoves
  have hpost : fontPathOf (trace ++ [e]) = fontPathOf trace := (fontPathOf_append trace [e]).trans he
  exact hpost ▸ h hremoves.left

theorem kept_accounted : KeptByAll (fun _ => True) Accounted where
  roots := ⟨trivial, trivial⟩
  X11 := trivial
  entry _ _ _ _ := trivial
  event _ _ _ _ _ _ _ := trivial
  quiet folders trace e he h := accounted_other (by cases e <;> first | rfl | cases he) h
  created _ _ _ h := accounted_other rfl h
  read _ _ _ h := accounted_other rfl h
  tracked folders trace path f ext _ hnone hmade h hremoves := by
    have hnone' : folders.find f.m_path = none := hmade.m_path ▸ hnone
    exact (hmade.lists (not_flagged_of_find hnone) hremoves (h hremoves.left)).congr (flagged_insert hnone')
  dropped folders trace path f ext f' ext' hnone hmade hmodified h hremoves := by
    have hothers := not_flagged_of_find hnone
    have hmadeLists := hmade.lists hothers hremoves.left (h hremoves.left.left)
    exact hmodified.gone (hmade.m_path.symm ▸ hothers) hremoves hmadeLists
  removed folders trace path f f' ext hfind hmodified h hremoves := by
    have hpath := (KeyedSet.find_eq_some.1 hfind).2
    exact hmodified.gone (hpath.symm ▸ not_flagged_erase) hremoves ((h hremoves.left).congr (flagged_erase hfind))
  modified folders trace f isAdd f' ext hf hmodified h hremoves := by
    have hfind : folders.find f.m_path = some f := KeyedSet.find_eq_some.2 ⟨hf, rfl⟩
    have hlists := hmodified.lists not_flagged_erase hremoves ((h hremoves.left).congr (flagged_erase hfind))
    rw [← hmodified.m_path] at hfind hlists
    exact hlists.congr (flagged_update hfind)

variable {W : Type}

theorem accounted_new : Accounted FontMonitor.new.m_fontMonitorFolders [] :=
  fun _ => ⟨.nil, fun path => by simp [fontPathOf, Flagged, FontMonitor.new]⟩

/-- After every operation the font path lists the tracked folders whose flag is set,
each once, and after `Stop` nothing. -/
theorem font_path_accounted {env : Linux W} {w : W} {as : List Operation} {s : FontMachine W}
    (hrun : Run (Step env) (.start w) as s) (hremoves : RemovesPresent s.sys.trace) :
    Lists (fontPathOf s.sys.trace) (Flagged s.monitor.m_fontMonitorFolders) ∧
      (as.getLast? = some .Stop → fontPathOf s.sys.trace = []) := by
  have hlists := kept_accounted.run (fun _ _ => trivial) accounted_new hrun hremoves
  refine ⟨hlists, ?_⟩
  intro hlast
  obtain ⟨before, rfl⟩ := List.getLast?_eq_some_iff.1 hlast
  obtain ⟨t, t', hbefore, ⟨v, rfl⟩, hnil⟩ := hrun.split
  cases hnil
  have ht := kept_accounted.run (fun _ _ => trivial) accounted_new hbefore
  have hstop : Yields (t.monitor.Stop env) { t.sys with world := v } fun m' u => m' = .new ∧ Accounted .empty u.trace :=
    kept_accounted.Stop ht
  refine List.eq_nil_iff_forall_not_mem.2 fun path hpath => ?_
  obtain ⟨f, hf, -⟩ := ((hstop.2 hremoves).mem path).1 hpath
  cases hf

theorem font_path_accounted_started :
    let s := [.Start (.success 7), .Stop].foldl (perform (.plain fun _ => [])) (.start 3)
    Lists (fontPathOf s.sys.trace) (Flagged s.monitor.m_fontMonitorFolders) ∧
      ([.Start (.success 7), .Stop].getLast? = some Operation.Stop → fontPathOf s.sys.trace = []) := by
  refine font_path_accounted (run_perform _ _ _) (everyAt_of_forall fun e he _ _ path hfailed => ?_)
  have hnone : ∀ e ∈ ([.Start (.success 7), .Stop].foldl (perform (.plain fun _ => [])) (.start 3)).sys.trace,
      e.succeeds := by
    decide +kernel
  exact absurd (hnone e he) (hfailed ▸ Bool.false_ne_true)

end Wslg.Wslgd.Operations
