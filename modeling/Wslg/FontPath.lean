import Wslg.Folders
/-!
# The font path

A folder is told whether it is in the font path by a flag of its own. The flag is
behind the `fonts.dir` by what the queue says of it: once all that is handled, the
flag is right. So the font path is right whenever the monitor is at rest, in runs
where nothing happens to a `fonts.dir` that the queue does not say.
-/

open Lib

namespace Wslg.Wslgd

/-! ## A flag that follows -/

/-- The flag is set, or the fact is looked up, and the flag is set if it holds. -/
inductive Pending where
  | check
  | set (isAdded : Bool)

namespace Pending

def apply (fact : Bool) : Pending → Bool → Bool
  | .check, flag => flag || fact
  | .set isAdded, _ => isAdded

/-- Once everything is handled the flag is the fact. -/
def Settles (fact flag : Bool) (pending : List Pending) : Prop := pending.foldl (fun flag p => p.apply fact flag) flag = fact

variable {fact flag isAdded : Bool} {pending rest : List Pending}

theorem settles_check : Settles fact flag (.check :: rest) ↔ Settles fact (flag || fact) rest := Iff.rfl

theorem settles_append_check (h : fact = true ∨ Settles fact flag pending) : Settles fact flag (pending ++ [.check]) := by
  unfold Settles at h ⊢
  rw [List.foldl_append]
  change (_ || fact) = fact
  rcases h with rfl | h
  · exact Bool.or_true _
  · rw [h, Bool.or_self]

theorem settles_append_set : Settles isAdded flag (pending ++ [.set isAdded]) := by
  unfold Settles
  rw [List.foldl_append]
  rfl

end Pending

/-! ## What is pending -/

/-- What the monitor is about to do for a folder. -/
def Work.pending (path : FolderPath) : Work → List Pending
  | .checkFontsDir p => if p = path then [.check] else []
  | .modify p isAdd => if p = path then [.set isAdd] else []
  | .rehash next => next.pending path
  | _ => []

def inotify_event.pending? (wd : Wd) (event : inotify_event) : Option Pending :=
  if event.wd = wd then event.fontsDir?.map (fun appears => if appears then .check else .set false) else none

def FontState.pending (s : FontState) (path : FolderPath) (wd : Wd) : List Pending :=
  s.work.pending path ++ s.queue.filterMap (inotify_event.pending? wd)

/-- The folder that is not in the map, though it may be in the font path. -/
def Work.outside? : Work → Option FontFolder
  | .access f => some f
  | .addPath f => some f
  | .addWatch f => some f
  | .removePath f => some f
  | .rehash next => next.outside?
  | _ => none

/-- The font path has those of the folders whose flag says so. -/
def InPath (fontPath : List FolderPath) (held : FontFolder → Prop) : Prop :=
  ∀ p, p ∈ fontPath ↔ ∃ f, held f ∧ f.m_path = p ∧ f.m_isPathAdded = true

/-- In the map, or about to be in it, or just removed. -/
def FontState.Held (s : FontState) (f : FontFolder) : Prop :=
  f ∈ s.m_fontMonitorFolders.elems ∨ s.work.outside? = some f

structure Following (s : FontState) : Prop where
  /-- A name is of one thing. -/
  named : ∀ i, s.tree.child i c_fontsdir ≠ none → s.fontsDir i = none
  watched : ∀ f ∈ s.m_fontMonitorFolders.elems, ∃ i w, f.m_wd = some w ∧ s.resolve f.m_path = some i ∧ (i, w) ∈ s.watches.marks
  owned : ∀ i w, (i, w) ∈ s.watches.marks → ∃ f ∈ s.m_fontMonitorFolders.elems, f.m_wd = some w
  events : ∀ event ∈ s.queue, event.wd < s.watches.next ∧ ∀ x, event.note? = some x → x.arrives = true
  settles : ∀ f ∈ s.m_fontMonitorFolders.elems, ∀ w, f.m_wd = some w →
    Pending.Settles (s.readable f.m_path) f.m_isPathAdded (s.pending f.m_path w)
  outside : ∀ f, s.work.outside? = some f → s.m_fontMonitorFolders.find f.m_path.str = none
  unwatched : ∀ f, s.work.outside? = some f ∨ s.work.leaving? = some f → f.m_wd = none
  inPath : InPath s.fontPath s.Held

/-- One folder is modified, and no other has its path. -/
theorem InPath.modify {fontPath fontPath' : List FolderPath} {held held' : FontFolder → Prop} {f g : FontFolder} {isAdd : Bool}
    {next : FontFolder → Work} {work : Work} (hin : InPath fontPath held) (hf : held f)
    (huniq : ∀ g, held g → g.m_path = f.m_path → g = f)
    (hheld : ∀ g, g.m_isPathAdded = true → (held' g ↔ g = { f with m_isPathAdded := isAdd } ∨ held g ∧ g.m_path ≠ f.m_path))
    (h : ModifyX11FontPath f isAdd true fontPath next = (g, fontPath', work)) :
    g = { f with m_isPathAdded := isAdd } ∧ (work = next g ∨ work = .rehash (next g)) ∧ InPath fontPath' held' := by
  have hself : f.m_path ∈ fontPath ↔ f.m_isPathAdded = true := by
    rw [hin f.m_path]
    constructor
    · rintro ⟨g, hg, hpath, hadded⟩
      rwa [huniq g hg hpath] at hadded
    · exact fun hadded => ⟨f, hf, rfl, hadded⟩
  have hmem : g = { f with m_isPathAdded := isAdd } ∧ (work = next g ∨ work = .rehash (next g)) ∧
      ∀ p, p ∈ fontPath' ↔ (p = f.m_path ∧ isAdd = true) ∨ (p ≠ f.m_path ∧ p ∈ fontPath) := by
    unfold ModifyX11FontPath at h
    split at h
    · cases h
      refine ⟨rfl, .inr rfl, fun p => ?_⟩
      cases isAdd with
      | true =>
        by_cases hp : p = f.m_path <;> simp [hp]
      | false =>
        by_cases hp : p = f.m_path <;> simp [hp]
    · rename_i hsame
      cases h
      obtain rfl : f.m_isPathAdded = isAdd := by simpa using hsame
      refine ⟨rfl, .inl rfl, fun p => ?_⟩
      by_cases hp : p = f.m_path
      · simp [hp, hself]
      · simp [hp]
  obtain ⟨rfl, hwork, hmem⟩ := hmem
  refine ⟨rfl, hwork, fun p => ?_⟩
  rw [hmem p]
  constructor
  · rintro (⟨rfl, hadded⟩ | ⟨hne, hp⟩)
    · exact ⟨_, (hheld _ hadded).2 (.inl rfl), rfl, hadded⟩
    · obtain ⟨g, hg, rfl, hadded⟩ := (hin p).1 hp
      exact ⟨g, (hheld g hadded).2 (.inr ⟨hg, hne⟩), rfl, hadded⟩
  · rintro ⟨g, hg, rfl, hadded⟩
    rcases (hheld g hadded).1 hg with rfl | ⟨hg, hne⟩
    · exact .inl ⟨rfl, hadded⟩
    · exact .inr ⟨hne, (hin _).2 ⟨g, hg, rfl, hadded⟩⟩

/-! ## The runs -/

namespace FontState

/-- `xset` succeeds, and directories are only made, with other names than `fonts.dir`. -/
def granted (s : FontState) : FontLabel → Bool
  | .change (.mkdir _ n) => n ≠ c_fontsdir
  | .change (.rmdir _ _) => false
  | .change (.rename _ _ _ _) => false
  | .change _ => true
  | .monitor a =>
    match s.work with
    | .addPath _ => a = .ok
    | .removePath _ => a = .ok
    | .modify _ _ => a = .ok
    | _ => true

/-- When a folder is watched its `fonts.dir` is still as `access` found it, and none that
can be read is replaced by one that cannot. -/
def steady (s : FontState) : FontLabel → Bool
  | .change (.moveIn i readable) => readable ∨ s.fontsDir i ≠ some true
  | .change _ => true
  | .monitor a =>
    match s.work with
    | .addWatch f => a = .ok → f.m_isPathAdded = s.readable f.m_path
    | _ => true

end FontState

def GrantedStep (s : FontState) (l : FontLabel) (t : FontState) : Prop := s.step l = some t ∧ s.granted l

def SteadyStep (s : FontState) (l : FontLabel) (t : FontState) : Prop := GrantedStep s l t ∧ s.steady l

namespace Following

variable {s t : FontState} {f g : FontFolder} {path : FolderPath} {a : Answer} {w : Wd} {i : Inode}

/-! ## The monitor's steps -/

/-- No two folders have a descriptor in common. -/
theorem wd_inj (hs : Following s) (hf : f ∈ s.m_fontMonitorFolders.elems) (hg : g ∈ s.m_fontMonitorFolders.elems)
    (hfw : f.m_wd = some w) (hgw : g.m_wd = some w) : f = g := by
  obtain ⟨i, v, hv, hi, hmark⟩ := hs.watched f hf
  obtain ⟨j, v', hv', hj, hmark'⟩ := hs.watched g hg
  obtain rfl := Option.some.inj (hfw.symm.trans hv)
  obtain rfl := Option.some.inj (hgw.symm.trans hv')
  obtain rfl := s.watches.wd_unique _ _ _ hmark hmark'
  obtain ⟨hroot, hbelow⟩ := DirTree.resolve_injective hi hj
  refine KeyedSet.eq_of_key hf hg (congrArg FolderPath.str ?_)
  exact FolderPath.place_injective (Prod.ext hroot hbelow)

theorem folderOf (hs : Following s) (hf : f ∈ s.m_fontMonitorFolders.elems) (hw : f.m_wd = some w) :
    s.folderOf w = some f := by
  cases hfolder : s.folderOf w with
  | none => exact absurd (entryAt_eq_some.2 ⟨f, hf, rfl, hw⟩) (folderOf_eq_none hfolder f.m_path.place)
  | some g =>
    obtain ⟨hg, hentry⟩ := folderOf_eq_some hfolder
    have hgw : g.m_wd = some w := by simpa using List.find?_some hfolder
    rw [hs.wd_inj hg hf hgw hw]

/-- Of the folders only what is pending for them changes. -/
theorem of_work (hs : Following s) {work : Work} {frames : List Frame} {queue : List inotify_event}
    (hqueue : queue ⊆ s.queue)
    (hpending : ∀ f ∈ s.m_fontMonitorFolders.elems, ∀ w, f.m_wd = some w →
      Pending.Settles (s.readable f.m_path) f.m_isPathAdded
        (work.pending f.m_path ++ queue.filterMap (inotify_event.pending? w)))
    (houtside : work.outside? = s.work.outside?) (hleaving : ∀ f, work.leaving? = some f →
      s.work.outside? = some f ∨ s.work.leaving? = some f) :
    Following { s with work := work, frames := frames, queue := queue } where
  named := hs.named
  watched := hs.watched
  owned := hs.owned
  events event hevent := hs.events event (hqueue hevent)
  settles := hpending
  outside f hf := hs.outside f (houtside ▸ hf)
  unwatched f hf := hs.unwatched f (by
    rcases hf with hf | hf
    · exact .inl (houtside ▸ hf)
    · exact hleaving f hf)
  inPath p := by
    have hin := hs.inPath p
    unfold FontState.Held at hin ⊢
    rw [hin]
    dsimp only
    rw [houtside]

theorem of_turn (hs : Following s) {old work : Work} {frames : List Frame} (hwork : s.work = old)
    (hpending : ∀ p, work.pending p = old.pending p) (houtside : work.outside? = old.outside?)
    (hleaving : ∀ f, work.leaving? = some f → old.outside? = some f ∨ old.leaving? = some f) :
    Following { s with work := work, frames := frames } := by
  subst hwork
  refine hs.of_work (List.Subset.refl _) (fun f hf w hw => ?_) houtside hleaving
  rw [hpending]
  exact hs.settles f hf w hw

theorem following_AddMonitorFolder (hs : Following s) (hwork : s.work = .AddMonitorFolder path) (h : s.proceed a = some t) :
    Following t := by
  unfold FontState.proceed at h
  rw [hwork] at h
  cases h
  cases hfind : s.m_fontMonitorFolders.find path.str with
  | some f => exact hs.of_turn hwork (fun p => rfl) rfl (fun f hf => by cases hf)
  | none =>
    -- the new folder is not in the font path
    refine
      { named := hs.named
        watched := hs.watched
        owned := hs.owned
        events := hs.events
        settles := fun f hf w hw => ?_
        outside := fun f hf => ?_
        unwatched := fun f hf => ?_
        inPath := fun p => ?_ }
    · have hsettles := hs.settles f hf w hw
      simp only [FontState.pending, hwork] at hsettles
      exact hsettles
    · cases hf
      exact hfind
    · rcases hf with hf | hf <;> cases hf
      rfl
    · have hin := hs.inPath p
      unfold FontState.Held at hin ⊢
      rw [hin, hwork]
      constructor
      · rintro ⟨f, hf | hf, hp⟩
        · exact ⟨f, .inl hf, hp⟩
        · cases hf
      · rintro ⟨f, hf | hf, hp⟩
        · exact ⟨f, .inl hf, hp⟩
        · cases hf
          cases hp.2

theorem following_access (hs : Following s) (hwork : s.work = .access f) (h : s.proceed a = some t) : Following t := by
  unfold FontState.proceed at h
  rw [hwork] at h
  cases h
  by_cases hreadable : s.readable f.m_path
  · rw [if_pos hreadable]
    exact hs.of_turn hwork (fun p => rfl) rfl (fun g hg => by cases hg)
  · rw [if_neg hreadable]
    exact hs.of_turn hwork (fun p => rfl) rfl (fun g hg => by cases hg)

theorem held_iff (hout : s.work.outside? = none) : s.Held g ↔ g ∈ s.m_fontMonitorFolders.elems := by
  unfold FontState.Held
  rw [hout]
  simp only [reduceCtorEq, or_false]

/-- The folders by what is pending for them, the work's share written out. -/
theorem settles_work (hs : Following s) {work : Work} (hwork : s.work = work) (hf : f ∈ s.m_fontMonitorFolders.elems)
    (hw : f.m_wd = some w) :
    Pending.Settles (s.readable f.m_path) f.m_isPathAdded
      (work.pending f.m_path ++ s.queue.filterMap (inotify_event.pending? w)) := by
  subst hwork
  exact hs.settles f hf w hw

theorem path_ne {folders : KeyedSet FontFolder.key} {p : FolderPath} (hp : folders.find p.str = none)
    (hg : g ∈ folders.elems) : g.m_path ≠ p := by
  rintro rfl
  rw [find_of_mem hg] at hp
  cases hp

/-- Nothing else held has the path of the folder outside the map. -/
theorem outside_unique (hs : Following s) (hf : s.work.outside? = some f) :
    ∀ g, s.Held g → g.m_path = f.m_path → g = f := by
  rintro g (hg | hg) hpath
  · exact absurd hpath (path_ne (hs.outside f hf) hg)
  · exact Option.some.inj (hg.symm.trans hf)

/-- When no folder is outside the map, its paths are those of all that are held. -/
theorem held_unique (hf : f ∈ s.m_fontMonitorFolders.elems) (hout : s.work.outside? = none) :
    ∀ g, s.Held g → g.m_path = f.m_path → g = f := by
  intro g hg hpath
  exact KeyedSet.eq_of_key ((held_iff hout).1 hg) hf (congrArg FolderPath.str hpath)

/-- The font path is changed for the folder outside the map. -/
theorem of_fontPath (hs : Following s) {work : Work} {fontPath : List FolderPath}
    (hpending : ∀ p, work.pending p = s.work.pending p)
    (houtside : ∀ f, work.outside? = some f → s.m_fontMonitorFolders.find f.m_path.str = none)
    (hunwatched : ∀ f, work.outside? = some f ∨ work.leaving? = some f → f.m_wd = none)
    (hin : InPath fontPath fun f => f ∈ s.m_fontMonitorFolders.elems ∨ work.outside? = some f) :
    Following { s with fontPath := fontPath, work := work } where
  named := hs.named
  watched := hs.watched
  owned := hs.owned
  events := hs.events
  settles f hf w hw := by
    have hsettles := hs.settles f hf w hw
    unfold FontState.pending at hsettles ⊢
    rw [hpending]
    exact hsettles
  outside := houtside
  unwatched := hunwatched
  inPath := hin

theorem following_addPath (hs : Following s) (hwork : s.work = .addPath f) (hgranted : s.granted (.monitor a))
    (h : s.proceed a = some t) : Following t := by
  simp only [FontState.granted, hwork, decide_eq_true_eq] at hgranted
  subst hgranted
  unfold FontState.proceed at h
  simp only [hwork, decide_true] at h
  have hout : s.work.outside? = some f := by rw [hwork]; rfl
  rcases hmodify : ModifyX11FontPath f true true s.fontPath .addWatch with ⟨g, fontPath, work⟩
  rw [hmodify] at h
  cases h
  -- the folder is held as before, with its flag set
  have hheld : ∀ g', g'.m_isPathAdded = true → (g' ∈ s.m_fontMonitorFolders.elems ∨ g' = { f with m_isPathAdded := true } ↔
      g' = { f with m_isPathAdded := true } ∨ s.Held g' ∧ g'.m_path ≠ f.m_path) := by
    intro g' _
    constructor
    · rintro (hg' | hg')
      · exact .inr ⟨.inl hg', path_ne (hs.outside f hout) hg'⟩
      · exact .inl hg'
    · rintro (hg' | ⟨hg' | hg', hne⟩)
      · exact .inr hg'
      · exact .inl hg'
      · obtain rfl := Option.some.inj (hg'.symm.trans hout)
        exact absurd rfl hne
  obtain ⟨rfl, hnext, hin⟩ := hs.inPath.modify (.inr hout) (hs.outside_unique hout) hheld hmodify
  have houtside : work.outside? = some { f with m_isPathAdded := true } := by rcases hnext with rfl | rfl <;> rfl
  have hleaving : work.leaving? = none := by rcases hnext with rfl | rfl <;> rfl
  refine hs.of_fontPath (fun p => ?_) (fun f' hf' => ?_) (fun f' hf' => ?_) fun p => ?_
  · rw [hwork]
    rcases hnext with rfl | rfl <;> rfl
  · obtain rfl := Option.some.inj (houtside.symm.trans hf')
    exact hs.outside f hout
  · rcases hf' with hf' | hf'
    · obtain rfl := Option.some.inj (houtside.symm.trans hf')
      exact hs.unwatched f (.inl hout)
    · rw [hleaving] at hf'
      cases hf'
  · rw [hin p, houtside]
    simp only [Option.some.injEq, eq_comm]

/-- A directory that is watched belongs to a folder in the map. -/
theorem fresh (hs : Following s) (hi : s.resolve path = some i) (hfind : s.m_fontMonitorFolders.find path.str = none) :
    s.watches.wdOf i = none := by
  cases hw : s.watches.wdOf i with
  | none => rfl
  | some w =>
    have hmark := Watches.wdOf_eq_some.1 hw
    obtain ⟨g, hg, hgw⟩ := hs.owned i w hmark
    obtain ⟨j, v, hv, hj, hmark'⟩ := hs.watched g hg
    obtain rfl := Option.some.inj (hgw.symm.trans hv)
    obtain rfl := s.watches.wd_unique _ _ _ hmark hmark'
    obtain ⟨hroot, hbelow⟩ := DirTree.resolve_injective hj hi
    exact absurd (FolderPath.place_injective (Prod.ext hroot hbelow)) (path_ne hfind hg)

/-- A folder that is watched is in the map, and nothing is pending for it. -/
theorem of_watch (hs : Following s) (hout : s.work.outside? = some f) (hi : s.resolve f.m_path = some i)
    (hidle : ∀ p, s.work.pending p = []) (hflag : f.m_isPathAdded = s.readable f.m_path) (h : s.watches.wdOf i = none) :
    Following { s with
      watches := s.watches.add i h
      m_fontMonitorFolders := s.m_fontMonitorFolders.insert { f with m_wd := some s.watches.next }
      work := .openFolder f.m_path } := by
  have hfind := hs.outside f hout
  have hmem : ∀ g, g ∈ (s.m_fontMonitorFolders.insert { f with m_wd := some s.watches.next }).elems ↔
      g ∈ s.m_fontMonitorFolders.elems ∨ g = { f with m_wd := some s.watches.next } := by
    intro g
    rw [KeyedSet.mem_insert]
    exact or_congr_right (and_iff_left hfind)
  refine
    { named := hs.named
      watched := fun g hg => ?_
      owned := fun j w hmark => ?_
      events := fun event hevent => ?_
      settles := fun g hg w hw => ?_
      outside := fun g hg => ?_
      unwatched := fun g hg => ?_
      inPath := fun p => ?_ }
  · rcases (hmem g).1 hg with hg | rfl
    · obtain ⟨j, w, hw, hj, hmark⟩ := hs.watched g hg
      exact ⟨j, w, hw, hj, (Watches.mem_add (h := h)).2 (.inr hmark)⟩
    · exact ⟨i, s.watches.next, rfl, hi, (Watches.mem_add (h := h)).2 (.inl rfl)⟩
  · rcases (Watches.mem_add (h := h)).1 hmark with heq | hmark
    · cases heq
      exact ⟨_, (hmem _).2 (.inr rfl), rfl⟩
    · obtain ⟨g, hg, hgw⟩ := hs.owned j w hmark
      exact ⟨g, (hmem g).2 (.inl hg), hgw⟩
  · exact ⟨Nat.lt_succ_of_lt (hs.events event hevent).1, (hs.events event hevent).2⟩
  · rcases (hmem g).1 hg with hg | rfl
    · have hsettles := hs.settles g hg w hw
      unfold FontState.pending at hsettles
      rw [hidle] at hsettles
      exact hsettles
    · obtain rfl := Option.some.inj hw
      -- the queue is older than the watch
      have hnone : s.queue.filterMap (inotify_event.pending? s.watches.next) = [] := by
        rw [List.filterMap_eq_nil_iff]
        intro event hevent
        exact if_neg (Nat.ne_of_lt (hs.events event hevent).1)
      change Pending.Settles (s.readable f.m_path) f.m_isPathAdded ([] ++ s.queue.filterMap _)
      rw [hnone]
      exact hflag
  · cases hg
  · rcases hg with hg | hg <;> cases hg
  · rw [hs.inPath p]
    constructor
    · rintro ⟨g, hg | hg, rfl, hadded⟩
      · exact ⟨g, .inl ((hmem g).2 (.inl hg)), rfl, hadded⟩
      · obtain rfl := Option.some.inj (hg.symm.trans hout)
        exact ⟨_, .inl ((hmem _).2 (.inr rfl)), rfl, hadded⟩
    · rintro ⟨g, hg | hg, rfl, hadded⟩
      · rcases (hmem g).1 hg with hg | rfl
        · exact ⟨g, .inl hg, rfl, hadded⟩
        · exact ⟨f, .inr hout, rfl, hadded⟩
      · cases hg

theorem following_addWatch (hs : Following s) (hwork : s.work = .addWatch f) (hsteady : s.steady (.monitor a))
    (h : s.proceed a = some t) : Following t := by
  simp only [FontState.steady, hwork, decide_eq_true_eq] at hsteady
  unfold FontState.proceed at h
  rw [hwork] at h
  cases h
  have hout : s.work.outside? = some f := by rw [hwork]; rfl
  unfold FontState.addWatch
  cases hi : (if a = .ok then s.resolve f.m_path else none) with
  | none =>
    exact hs.of_turn hwork (fun p => rfl) rfl (fun g hg => .inl hg)
  | some i =>
    obtain ⟨hok, hi⟩ : a = .ok ∧ s.resolve f.m_path = some i := by
      -- only here the answer of `inotify_add_watch` counts
      split at hi
      · exact ⟨‹_›, hi⟩
      · cases hi
    have hfresh := hs.fresh hi (hs.outside f hout)
    dsimp only
    split
    · rename_i wd hwd
      rw [hfresh] at hwd
      cases hwd
    · exact hs.of_watch hout hi (by rw [hwork]; exact fun p => rfl) (hsteady hok) _

theorem following_openFolder (hs : Following s) (hwork : s.work = .openFolder path) (h : s.proceed a = some t) :
    Following t := by
  unfold FontState.proceed at h
  rw [hwork] at h
  cases h
  unfold FontState.openFolder
  split
  · split
    · exact hs.of_turn hwork (fun p => rfl) rfl (fun g hg => by cases hg)
    · exact hs.of_turn hwork (fun p => rfl) rfl (fun g hg => by cases hg)
  · split
    · exact hs.of_turn hwork (fun p => rfl) rfl (fun g hg => by cases hg)
    · exact hs.of_turn hwork (fun p => rfl) rfl (fun g hg => by cases hg)

theorem following_removePath (hs : Following s) (hwork : s.work = .removePath f) (hgranted : s.granted (.monitor a))
    (h : s.proceed a = some t) : Following t := by
  simp only [FontState.granted, hwork, decide_eq_true_eq] at hgranted
  subst hgranted
  unfold FontState.proceed at h
  simp only [hwork, decide_true] at h
  have hout : s.work.outside? = some f := by rw [hwork]; rfl
  rcases hmodify : ModifyX11FontPath f false true s.fontPath .removeWatch with ⟨g, fontPath, work⟩
  rw [hmodify] at h
  cases h
  -- without the flag it does not matter any more whether it is held
  have hheld : ∀ g', g'.m_isPathAdded = true → (g' ∈ s.m_fontMonitorFolders.elems ↔
      g' = { f with m_isPathAdded := false } ∨ s.Held g' ∧ g'.m_path ≠ f.m_path) := by
    intro g' hadded
    constructor
    · exact fun hg' => .inr ⟨.inl hg', path_ne (hs.outside f hout) hg'⟩
    · rintro (rfl | ⟨hg' | hg', hne⟩)
      · cases hadded
      · exact hg'
      · obtain rfl := Option.some.inj (hg'.symm.trans hout)
        exact absurd rfl hne
  obtain ⟨rfl, hnext, hin⟩ := hs.inPath.modify (.inr hout) (hs.outside_unique hout) hheld hmodify
  have houtside : work.outside? = none := by rcases hnext with rfl | rfl <;> rfl
  have hleaving : work.leaving? = some { f with m_isPathAdded := false } := by rcases hnext with rfl | rfl <;> rfl
  refine hs.of_fontPath (fun p => ?_) (fun f' hf' => ?_) (fun f' hf' => ?_) fun p => ?_
  · rw [hwork]
    rcases hnext with rfl | rfl <;> rfl
  · rw [houtside] at hf'
    cases hf'
  · rcases hf' with hf' | hf'
    · rw [houtside] at hf'
      cases hf'
    · obtain rfl := Option.some.inj (hleaving.symm.trans hf')
      exact hs.unwatched f (.inl hout)
  · rw [hin p, houtside]
    simp only [reduceCtorEq, or_false]

theorem following_removeWatch (hs : Following s) (hwork : s.work = .removeWatch f) (h : s.proceed a = some t) :
    Following t := by
  unfold FontState.proceed at h
  rw [hwork] at h
  cases h
  have hwd : f.m_wd = none := hs.unwatched f (.inr (by rw [hwork]; rfl))
  unfold FontState.removeWatch
  rw [hwd]
  exact hs.of_turn hwork (fun p => rfl) rfl (fun g hg => by cases hg)

theorem following_rehash {next : Work} (hs : Following s) (hwork : s.work = .rehash next) (h : s.proceed a = some t) :
    Following t := by
  unfold FontState.proceed at h
  rw [hwork] at h
  cases h
  exact hs.of_turn hwork (fun p => rfl) rfl (fun g hg => .inr hg)

/-- What `access` finds is what the flag will be. -/
theorem following_checkFontsDir (hs : Following s) (hwork : s.work = .checkFontsDir path) (h : s.proceed a = some t) :
    Following t := by
  unfold FontState.proceed at h
  rw [hwork] at h
  cases h
  by_cases hreadable : s.readable path
  · rw [if_pos hreadable]
    refine hs.of_work (List.Subset.refl _) (fun f hf w hw => ?_) (by rw [hwork]; rfl) (fun f hf => by cases hf)
    have hf := hs.settles_work hwork hf hw
    unfold Work.pending at hf ⊢
    by_cases hpath : path = f.m_path
    · subst hpath
      -- `access` found it: the flag is to be set
      rw [if_pos rfl] at hf ⊢
      rw [List.singleton_append, Pending.settles_check, hreadable, Bool.or_true] at hf
      rw [hreadable]
      exact hf
    · rw [if_neg hpath] at hf ⊢
      exact hf
  · rw [if_neg hreadable]
    refine hs.of_work (List.Subset.refl _) (fun f hf w hw => ?_) (by rw [hwork]; rfl) (fun f hf => by cases hf)
    have hf := hs.settles_work hwork hf hw
    unfold Work.pending at hf ⊢
    by_cases hpath : path = f.m_path
    · subst hpath
      -- not found: a check leaves the flag as it is
      rw [if_pos rfl, List.singleton_append, Pending.settles_check, Bool.eq_false_of_not_eq_true hreadable, Bool.or_false] at hf
      rw [Bool.eq_false_of_not_eq_true hreadable]
      exact hf
    · rw [if_neg hpath] at hf
      exact hf

theorem mem_replace {folders : KeyedSet FontFolder.key} {f' : FontFolder} (hpath : f'.m_path = f.m_path) :
    g ∈ ((folders.erase f.m_path.str).insert f').elems ↔ g = f' ∨ g ∈ folders.elems ∧ g.m_path ≠ f.m_path := by
  have hfree : (folders.erase f.m_path.str).find f'.key = none := by
    rw [KeyedSet.find_erase, FontFolder.key, hpath, if_pos rfl]
  rw [KeyedSet.mem_insert, KeyedSet.mem_erase, and_iff_left hfree, or_comm]
  refine or_congr_right (and_congr_right fun _ => ?_)
  exact not_congr ⟨FolderPath.str_injective, congrArg FolderPath.str⟩

/-- The flag of a folder in the map is set, and nothing is left to do. -/
theorem of_modify (hs : Following s) (hf : f ∈ s.m_fontMonitorFolders.elems) (hout : s.work.outside? = none) {isAdd : Bool}
    {fontPath : List FolderPath} {work : Work}
    (hset : ∀ w, f.m_wd = some w →
      Pending.Settles (s.readable f.m_path) isAdd (s.queue.filterMap (inotify_event.pending? w)))
    (hkept : ∀ g ∈ s.m_fontMonitorFolders.elems, g.m_path ≠ f.m_path → ∀ w, g.m_wd = some w →
      Pending.Settles (s.readable g.m_path) g.m_isPathAdded (s.queue.filterMap (inotify_event.pending? w)))
    (hpending : ∀ p, work.pending p = []) (houtside : work.outside? = none) (hleaving : work.leaving? = none)
    (hin : InPath fontPath fun g =>
      g ∈ ((s.m_fontMonitorFolders.erase f.m_path.str).insert { f with m_isPathAdded := isAdd }).elems) :
    Following { s with
      m_fontMonitorFolders := (s.m_fontMonitorFolders.erase f.m_path.str).insert { f with m_isPathAdded := isAdd }
      fontPath := fontPath
      work := work } := by
  have hmem : ∀ g : FontFolder,
      g ∈ ((s.m_fontMonitorFolders.erase f.m_path.str).insert { f with m_isPathAdded := isAdd }).elems ↔
        g = { f with m_isPathAdded := isAdd } ∨ g ∈ s.m_fontMonitorFolders.elems ∧ g.m_path ≠ f.m_path :=
    fun g => mem_replace rfl
  refine
    { named := hs.named
      watched := fun g hg => ?_
      owned := fun i w hmark => ?_
      events := hs.events
      settles := fun g hg w hw => ?_
      outside := fun g hg => ?_
      unwatched := fun g hg => ?_
      inPath := fun p => ?_ }
  · rcases (hmem g).1 hg with rfl | ⟨hg, -⟩
    · exact hs.watched f hf
    · exact hs.watched g hg
  · obtain ⟨g, hg, hgw⟩ := hs.owned i w hmark
    by_cases hpath : g.m_path = f.m_path
    · obtain rfl := held_unique hf hout g (.inl hg) hpath
      exact ⟨_, (hmem _).2 (.inl rfl), hgw⟩
    · exact ⟨g, (hmem g).2 (.inr ⟨hg, hpath⟩), hgw⟩
  · unfold FontState.pending
    dsimp only
    rw [hpending]
    rcases (hmem g).1 hg with rfl | ⟨hg, hne⟩
    · exact hset w hw
    · exact hkept g hg hne w hw
  · rw [houtside] at hg
    cases hg
  · rw [houtside, hleaving] at hg
    rcases hg with hg | hg <;> cases hg
  · rw [hin p]
    refine exists_congr fun g => and_congr_left fun _ => ?_
    exact Iff.symm (held_iff houtside)

theorem following_modify {isAdd : Bool} (hs : Following s) (hwork : s.work = .modify path isAdd)
    (hgranted : s.granted (.monitor a)) (h : s.proceed a = some t) : Following t := by
  simp only [FontState.granted, hwork, decide_eq_true_eq] at hgranted
  subst hgranted
  unfold FontState.proceed at h
  simp only [hwork, decide_true] at h
  cases h
  have hout : s.work.outside? = none := by rw [hwork]; rfl
  have hkept : ∀ g ∈ s.m_fontMonitorFolders.elems, g.m_path ≠ path → ∀ w, g.m_wd = some w →
      Pending.Settles (s.readable g.m_path) g.m_isPathAdded (s.queue.filterMap (inotify_event.pending? w)) := by
    intro g hg hne w hw
    have hsettled := hs.settles_work hwork hg hw
    unfold Work.pending at hsettled
    rwa [if_neg hne.symm] at hsettled
  unfold FontState.modify
  cases hfind : s.m_fontMonitorFolders.find path.str with
  | none =>
    -- the folder is gone from the map
    refine hs.of_work (List.Subset.refl _) (fun f hf w hw => ?_) (by rw [hwork]; rfl) (fun f hf => by cases hf)
    exact hkept f hf (path_ne hfind hf) w hw
  | some f =>
    obtain rfl := find_path hfind
    have hf := (KeyedSet.find_eq_some.1 hfind).1
    rcases hmodify : ModifyX11FontPath f isAdd true s.fontPath (fun _ => .idle) with ⟨g, fontPath, work⟩
    have hset : ∀ w, f.m_wd = some w →
        Pending.Settles (s.readable f.m_path) isAdd (s.queue.filterMap (inotify_event.pending? w)) := by
      intro w hw
      have hsettled := hs.settles_work hwork hf hw
      unfold Work.pending at hsettled
      rwa [if_pos rfl] at hsettled
    have hheld : ∀ g : FontFolder, g.m_isPathAdded = true →
        (g ∈ ((s.m_fontMonitorFolders.erase f.m_path.str).insert { f with m_isPathAdded := isAdd }).elems ↔
          g = { f with m_isPathAdded := isAdd } ∨ s.Held g ∧ g.m_path ≠ f.m_path) := by
      intro g _
      rw [held_iff hout]
      exact mem_replace rfl
    obtain ⟨rfl, hnext, hin⟩ := hs.inPath.modify (.inl hf) (held_unique hf hout) hheld hmodify
    dsimp only
    rw [hmodify]
    rcases hnext with rfl | rfl
    · exact hs.of_modify hf hout hset hkept (fun p => rfl) rfl rfl hin
    · exact hs.of_modify hf hout hset hkept (fun p => rfl) rfl rfl hin

/-! ### Events -/

section Events

variable {event : inotify_event} {rest : List inotify_event}

theorem settles_next (hs : Following s) (hwork : s.work = .idle) (hqueue : s.queue = event :: rest)
    (hf : f ∈ s.m_fontMonitorFolders.elems) (hw : f.m_wd = some w) :
    Pending.Settles (s.readable f.m_path) f.m_isPathAdded
      ((event.pending? w).toList ++ rest.filterMap (inotify_event.pending? w)) := by
  have hold := hs.settles f hf w hw
  unfold FontState.pending at hold
  rw [hwork, hqueue, List.filterMap_cons] at hold
  cases hp : event.pending? w with
  | none =>
    rw [hp] at hold
    exact hold
  | some p =>
    rw [hp] at hold
    exact hold

/-- An event that says nothing of the `fonts.dir` of a folder in the map. -/
theorem of_silent (hs : Following s) (hwork : s.work = .idle) (hqueue : s.queue = event :: rest)
    (hsilent : ∀ f ∈ s.m_fontMonitorFolders.elems, ∀ w, f.m_wd = some w → event.pending? w = none) {work : Work}
    (hpending : ∀ p, work.pending p = []) (houtside : work.outside? = none) (hleaving : work.leaving? = none) :
    Following { s with work := work, frames := s.frames, queue := rest } := by
  refine hs.of_work (by rw [hqueue]; exact List.subset_cons_self ..) (fun f hf w hw => ?_) ?_ (fun f hf => ?_)
  · have hold := hs.settles_next hwork hqueue hf hw
    rw [hsilent f hf w hw] at hold
    rw [hpending]
    exact hold
  · rw [houtside, hwork]
    rfl
  · rw [hleaving] at hf
    cases hf

/-- What the event says is what the monitor is about to do for its folder. -/
theorem of_news (hs : Following s) (hwork : s.work = .idle) (hqueue : s.queue = event :: rest) {appears : Bool}
    (hevent : event.fontsDir? = some appears) (hg : s.folderOf event.wd = some g) {work : Work}
    (hpending : ∀ p, work.pending p = if g.m_path = p then [if appears then .check else .set false] else [])
    (houtside : work.outside? = none) (hleaving : work.leaving? = none) :
    Following { s with work := work, frames := s.frames, queue := rest } := by
  have hmem := (folderOf_eq_some hg).1
  have hgw : g.m_wd = some event.wd := by simpa using List.find?_some hg
  refine hs.of_work (by rw [hqueue]; exact List.subset_cons_self ..) (fun f hf w hw => ?_) ?_ (fun f hf => ?_)
  · have hold := hs.settles_next hwork hqueue hf hw
    unfold inotify_event.pending? at hold
    rw [hpending]
    by_cases hwd : event.wd = w
    · obtain rfl := hs.wd_inj hf hmem hw (hgw.trans (congrArg some hwd))
      rw [if_pos hwd, hevent] at hold
      rw [if_pos rfl]
      exact hold
    -- another watch is of another folder
    · have hne : g.m_path ≠ f.m_path := by
        intro hpath
        obtain rfl := KeyedSet.eq_of_key hmem hf (congrArg FolderPath.str hpath)
        exact hwd (Option.some.inj (hgw.symm.trans hw))
      rw [if_neg hwd] at hold
      rw [if_neg hne]
      exact hold
  · rw [houtside, hwork]
    rfl
  · rw [hleaving] at hf
    cases hf

theorem fontsDir?_of_note {x : Note Name} (h : event.note? = some x) : event.fontsDir? = none := by
  obtain ⟨-, hname, hdir, -⟩ := note?_eq_some h
  unfold inotify_event.fontsDir?
  rw [hname]
  exact if_pos hdir

theorem following_event (hs : Following s) (hwork : s.work = .idle) (hqueue : s.queue = event :: rest) :
    Following (({ s with queue := rest } : FontState).handleEvent event) := by
  have hquiet : event.fontsDir? = none → ∀ f ∈ s.m_fontMonitorFolders.elems, ∀ w, f.m_wd = some w →
      event.pending? w = none := by
    intro hnone f _ w _
    unfold inotify_event.pending?
    rw [hnone]
    exact ite_self _
  have hpending : ∀ p, s.work.pending p = [] := by rw [hwork]; exact fun p => rfl
  have houtside : s.work.outside? = none := by rw [hwork]; rfl
  have hleaving : s.work.leaving? = none := by rw [hwork]; rfl
  cases hnote : event.note? with
  | some x =>
    -- a directory that was made
    obtain ⟨w, name, arrives⟩ := x
    have harrives : arrives = true := (hs.events event (hqueue ▸ List.mem_cons_self)).2 _ hnote
    subst harrives
    have hsilent := hquiet (fontsDir?_of_note hnote)
    rw [handleEvent_arrives hnote]
    cases ({ s with queue := rest } : FontState).folderOf w with
    | none => exact hs.of_silent hwork hqueue hsilent hpending houtside hleaving
    | some f =>
      dsimp only
      split
      · exact hs.of_silent hwork hqueue hsilent hpending houtside hleaving
      · exact hs.of_silent hwork hqueue hsilent (fun p => rfl) rfl rfl
  | none =>
    rw [handleEvent_of_none hnote]
    cases hevent : event.fontsDir? with
    | none => exact hs.of_silent hwork hqueue (hquiet hevent) hpending houtside hleaving
    | some appears =>
      cases hg : ({ s with queue := rest } : FontState).folderOf event.wd with
      | none =>
        -- nobody has the descriptor: its watch was removed
        have hsilent : ∀ f ∈ s.m_fontMonitorFolders.elems, ∀ w, f.m_wd = some w → event.pending? w = none := by
          intro f hf w hw
          refine if_neg fun hwd => folderOf_eq_none hg f.m_path.place ?_
          exact entryAt_eq_some.2 ⟨f, hf, rfl, hw.trans (congrArg some hwd.symm)⟩
        cases appears <;> exact hs.of_silent hwork hqueue hsilent hpending houtside hleaving
      | some g =>
        cases appears with
        | true => exact hs.of_news hwork hqueue hevent hg (fun p => rfl) rfl rfl
        | false => exact hs.of_news hwork hqueue hevent hg (fun p => rfl) rfl rfl

end Events

theorem following_idle (hs : Following s) (hwork : s.work = .idle) (h : s.proceed a = some t) : Following t := by
  rcases proceed_idle hwork h with ⟨path, frames, -, rfl⟩ | ⟨path, dir, unread, name, frames, -, rfl⟩ |
    ⟨path, dir, frames, -, rfl⟩ | ⟨event, queue, -, hqueue, rfl⟩
  · exact hs.of_turn hwork (fun p => rfl) rfl (fun f hf => by cases hf)
  · exact hs.of_turn hwork (fun p => rfl) rfl (fun f hf => by cases hf)
  · exact hs.of_turn hwork (fun p => rfl) rfl (fun f hf => by cases hf)
  · exact hs.following_event hwork hqueue

theorem following_proceed (hs : Following s) (hgranted : s.granted (.monitor a)) (hsteady : s.steady (.monitor a))
    (h : s.proceed a = some t) : Following t := by
  cases hwork : s.work with
  | idle => exact hs.following_idle hwork h
  | AddMonitorFolder path => exact hs.following_AddMonitorFolder hwork h
  | access f => exact hs.following_access hwork h
  | addPath f => exact hs.following_addPath hwork hgranted h
  | addWatch f => exact hs.following_addWatch hwork hsteady h
  | openFolder path => exact hs.following_openFolder hwork h
  | removePath f => exact hs.following_removePath hwork hgranted h
  | removeWatch f => exact hs.following_removeWatch hwork h
  | checkFontsDir path => exact hs.following_checkFontsDir hwork h
  | modify path isAdd => exact hs.following_modify hwork hgranted h
  | rehash next => exact hs.following_rehash hwork h

/-! ## Changes -/

section Changes

variable {mask : UInt32} {n : Name} {tree : DirTree (Option Root) Name} {fontsDir : Inode → Option Bool}

theorem notify_eq (s : FontState) (i : Inode) (mask : UInt32) (n : Name) : s.notify i mask n =
    { s with queue := s.queue ++ (s.watches.wdOf i).toList.map (fun w => ⟨w, mask, some n⟩) } := by
  unfold FontState.notify
  cases s.watches.wdOf i with
  | none =>
    simp only [Option.toList_none, List.map_nil, List.append_nil]
  | some w => rfl

/-- The directories change, and the watch of one of them says something. -/
theorem of_notify (hs : Following s) (hnamed : ∀ j, tree.child j c_fontsdir ≠ none → fontsDir j = none)
    (hresolve : ∀ p j, s.resolve p = some j → tree.resolve (some p.root) p.below = some j)
    (hnote : ∀ w x, inotify_event.note? ⟨w, mask, some n⟩ = some x → x.arrives = true)
    (hsettles : ∀ f ∈ s.m_fontMonitorFolders.elems, ∀ j w, s.resolve f.m_path = some j →
      Pending.Settles (s.readable f.m_path) f.m_isPathAdded (s.pending f.m_path w) →
        Pending.Settles (({ s with tree := tree, fontsDir := fontsDir } : FontState).readable f.m_path) f.m_isPathAdded
          (s.pending f.m_path w ++ if j = i then (inotify_event.pending? w ⟨w, mask, some n⟩).toList else [])) :
    Following (({ s with tree := tree, fontsDir := fontsDir } : FontState).notify i mask n) := by
  rw [notify_eq]
  refine
    { named := hnamed
      watched := fun f hf => ?_
      owned := hs.owned
      events := fun event hevent => ?_
      settles := fun f hf w hw => ?_
      outside := hs.outside
      unwatched := hs.unwatched
      inPath := hs.inPath }
  · obtain ⟨j, w, hw, hj, hmark⟩ := hs.watched f hf
    exact ⟨j, w, hw, hresolve _ j hj, hmark⟩
  · rcases List.mem_append.1 hevent with hevent | hevent
    · exact hs.events event hevent
    · obtain ⟨w, hw, rfl⟩ := List.mem_map.1 hevent
      exact ⟨s.watches.used i w (Watches.wdOf_eq_some.1 (Option.mem_toList.1 hw)), hnote w⟩
  · obtain ⟨j, v, hv, hj, hmark⟩ := hs.watched f hf
    obtain rfl := Option.some.inj (hw.symm.trans hv)
    have hnew := hsettles f hf j w hj (hs.settles f hf w hw)
    have htold : ((s.watches.wdOf i).toList.map (fun v => (⟨v, mask, some n⟩ : inotify_event))).filterMap
        (inotify_event.pending? w) = if j = i then (inotify_event.pending? w ⟨w, mask, some n⟩).toList else [] := by
      -- only the watch of the directory that changed hears of it
      by_cases hji : j = i
      · subst hji
        rw [if_pos rfl, Watches.wdOf_eq_some.2 hmark, Option.toList_some, List.map_singleton, List.filterMap_cons]
        cases inotify_event.pending? w ⟨w, mask, some n⟩ <;> rfl
      · rw [if_neg hji, List.filterMap_eq_nil_iff]
        intro event hevent
        obtain ⟨u, hu, rfl⟩ := List.mem_map.1 hevent
        have hmark' := Watches.wdOf_eq_some.1 (Option.mem_toList.1 hu)
        refine if_neg fun heq => hji (s.watches.wd_unique _ _ _ hmark ?_)
        rwa [← show u = w from heq]
    unfold FontState.pending at hnew ⊢
    dsimp only
    rw [List.filterMap_append, htold, ← List.append_assoc]
    exact hnew

theorem readable_eq {s : FontState} {p : FolderPath} {j : Inode} (hj : s.resolve p = some j) :
    s.readable p = (s.fontsDir j = some true || (s.tree.child j c_fontsdir).isSome) := by
  unfold FontState.readable
  rw [hj]

theorem following_mkdir (hs : Following s) (hgranted : s.granted (.change (.mkdir i n)))
    (h : s.change (.mkdir i n) = some t) : Following t := by
  simp only [FontState.change] at h
  split at h
  · cases h
    rename_i hcan
    have hne : c_fontsdir ≠ n := (of_decide_eq_true hgranted).symm
    refine hs.of_notify (fun j hj => hs.named j (by rwa [DirTree.child_mkdir hne] at hj)) (fun p j hj => DirTree.resolve_mkdir hj)
      (fun w x hx => ?_) (fun f hf j w hj hsettles => ?_)
    · rw [note?_arrives (by decide) (by decide)] at hx
      cases hx
      rfl
    -- a directory that arrives says nothing of any `fonts.dir`
    · have hsilent : inotify_event.pending? w ⟨w, IN_CREATE ||| IN_ISDIR, some n⟩ = none := by
        unfold inotify_event.pending?
        rw [fontsDir?_of_note (note?_arrives (by decide) (by decide) w)]
        exact ite_self _
      have hj' : FontState.resolve { s with tree := s.tree.mkdir i n hcan.1 } f.m_path = some j :=
        DirTree.resolve_mkdir (h := hcan.1) hj
      rw [hsilent, Option.toList_none, ite_self, List.append_nil, readable_eq hj', DirTree.child_mkdir hne]
      rw [readable_eq hj] at hsettles
      exact hsettles
  · cases h

/-- What happens to a `fonts.dir` is pending, and makes the flag right. -/
theorem following_setFontsDir (hs : Following s) (hchild : s.tree.child i c_fontsdir = none) {file : Option Bool}
    {appears : Bool} (hdir : ¬ mask &&& IN_ISDIR ≠ 0)
    (hevent : ∀ w, inotify_event.fontsDir? ⟨w, mask, some c_fontsdir⟩ = some appears)
    (hsettles : ∀ flag pending, Pending.Settles (decide (s.fontsDir i = some true)) flag pending →
      Pending.Settles (decide (file = some true)) flag (pending ++ [if appears then .check else .set false])) :
    Following (s.setFontsDir i file mask) := by
  unfold FontState.setFontsDir
  refine hs.of_notify (fun j hj => ?_) (fun p j hj => hj) (fun w x hx => ?_) (fun f hf j w hj hold => ?_)
  · rw [Function.update_apply, if_neg]
    · exact hs.named j hj
    · rintro rfl
      exact hj hchild
  · rw [show inotify_event.note? ⟨w, mask, some c_fontsdir⟩ = none from if_neg hdir] at hx
    cases hx
  · have hpending : inotify_event.pending? w ⟨w, mask, some c_fontsdir⟩ = some (if appears then .check else .set false) := by
      unfold inotify_event.pending?
      rw [if_pos rfl, hevent]
      rfl
    have hj' : FontState.resolve { s with fontsDir := Function.update s.fontsDir i file } f.m_path = some j := hj
    rw [readable_eq hj] at hold
    rw [readable_eq hj', hpending, Option.toList_some]
    dsimp only
    -- of the folder at `i` the change is pending; of the others nothing is new
    by_cases hji : j = i
    · subst hji
      rw [hchild, Option.isSome_none, Bool.or_false] at hold ⊢
      simp only [Function.update_self, if_true]
      exact hsettles _ _ hold
    · simp only [Function.update_of_ne hji]
      rw [if_neg hji, List.append_nil]
      exact hold

theorem fontsDir?_appears (hdir : ¬ mask &&& IN_ISDIR ≠ 0)
    (happears : mask &&& (IN_CREATE ||| IN_CLOSE_WRITE ||| IN_MOVED_TO) ≠ 0) (w : Wd) :
    inotify_event.fontsDir? ⟨w, mask, some c_fontsdir⟩ = some true :=
  (if_neg hdir).trans ((if_pos rfl).trans (if_pos happears))

theorem fontsDir?_goes (hdir : ¬ mask &&& IN_ISDIR ≠ 0)
    (happears : ¬ mask &&& (IN_CREATE ||| IN_CLOSE_WRITE ||| IN_MOVED_TO) ≠ 0)
    (hgoes : mask &&& (IN_DELETE ||| IN_MOVED_FROM) ≠ 0) (w : Wd) :
    inotify_event.fontsDir? ⟨w, mask, some c_fontsdir⟩ = some false :=
  (if_neg hdir).trans ((if_pos rfl).trans ((if_neg happears).trans (if_pos hgoes)))

theorem child_of_file (hs : Following s) (hfile : (s.fontsDir i).isSome) : s.tree.child i c_fontsdir = none := by
  by_contra hchild
  rw [hs.named i hchild] at hfile
  cases hfile

/-- A `fonts.dir` that appears is checked. -/
theorem following_appears (hs : Following s) (hchild : s.tree.child i c_fontsdir = none) {file : Option Bool}
    (hdir : ¬ mask &&& IN_ISDIR ≠ 0) (happears : mask &&& (IN_CREATE ||| IN_CLOSE_WRITE ||| IN_MOVED_TO) ≠ 0)
    (hfile : file = some true ∨ s.fontsDir i ≠ some true) : Following (s.setFontsDir i file mask) := by
  refine hs.following_setFontsDir hchild hdir (fontsDir?_appears hdir happears) fun flag pending hold => ?_
  -- if it cannot be read the flag must be clear already: a check never clears it
  by_cases hreadable : file = some true
  · exact Pending.settles_append_check (.inl (decide_eq_true hreadable))
  · rw [decide_eq_false hreadable]
    rw [decide_eq_false (hfile.resolve_left hreadable)] at hold
    exact Pending.settles_append_check (.inr hold)

theorem following_goes (hs : Following s) (hfile : (s.fontsDir i).isSome) (hdir : ¬ mask &&& IN_ISDIR ≠ 0)
    (happears : ¬ mask &&& (IN_CREATE ||| IN_CLOSE_WRITE ||| IN_MOVED_TO) ≠ 0)
    (hgoes : mask &&& (IN_DELETE ||| IN_MOVED_FROM) ≠ 0) : Following (s.setFontsDir i none mask) :=
  hs.following_setFontsDir (hs.child_of_file hfile) hdir (fontsDir?_goes hdir happears hgoes)
    fun _ _ _ => Pending.settles_append_set

theorem following_change {c : Change} (hs : Following s) (hgranted : s.granted (.change c)) (hsteady : s.steady (.change c))
    (h : s.change c = some t) : Following t := by
  cases c with
  | mkdir i n => exact hs.following_mkdir hgranted h
  | rmdir i n => cases hgranted
  | rename i n j m => cases hgranted
  | create i readable =>
    simp only [FontState.change] at h
    split at h
    · cases h
      rename_i hcan
      exact hs.following_appears hcan.2.2 (by decide) (by decide) (.inr (by rw [hcan.2.1]; rintro ⟨⟩))
    · cases h
  | rewrite i =>
    simp only [FontState.change] at h
    split at h
    · cases h
      refine hs.following_appears (hs.child_of_file ‹_›) (by decide) (by decide) ?_
      exact em _
    · cases h
  | remove i =>
    simp only [FontState.change] at h
    split at h
    · cases h
      exact hs.following_goes ‹_› (by decide) (by decide) (by decide)
    · cases h
  | moveIn i readable =>
    simp only [FontState.change] at h
    split at h
    · cases h
      rename_i hcan
      have hreadable : readable = true ∨ s.fontsDir i ≠ some true := of_decide_eq_true hsteady
      exact hs.following_appears hcan.2 (by decide) (by decide) (hreadable.imp_left (congrArg some))
    · cases h
  | moveOut i =>
    simp only [FontState.change] at h
    split at h
    · cases h
      exact hs.following_goes ‹_› (by decide) (by decide) (by decide)
    · cases h

end Changes

/-! ## Runs -/

theorem following_start {tree : DirTree (Option Root) Name} {fontsDir : Inode → Option Bool}
    (hnamed : ∀ i, tree.child i c_fontsdir ≠ none → fontsDir i = none) : Following (.start tree fontsDir) where
  named := hnamed
  watched f hf := by cases hf
  owned i w hmark := by cases hmark
  events event hevent := by cases hevent
  settles f hf := by cases hf
  outside f hf := by cases hf
  unwatched f hf := by rcases hf with hf | hf <;> cases hf
  inPath p := by
    constructor
    · intro hp
      cases hp
    · rintro ⟨f, hf | hf, -⟩ <;> cases hf

theorem following_step {l : FontLabel} (hs : Following s) (h : SteadyStep s l t) : Following t := by
  obtain ⟨⟨hstep, hgranted⟩, hsteady⟩ := h
  cases l with
  | change c => exact hs.following_change hgranted hsteady hstep
  | monitor a => exact hs.following_proceed hgranted hsteady hstep

end Following

/-- The folders in the map that are in the font path are those with a `fonts.dir`. -/
def FontState.PathRight (s : FontState) : Prop :=
  ∀ f ∈ s.m_fontMonitorFolders.elems, f.m_path ∈ s.fontPath ↔ s.readable f.m_path = true

theorem Following.pathRight {s : FontState} (hs : Following s) (hquiet : s.Quiet) : s.PathRight := by
  obtain ⟨hqueue, hwork, -⟩ := hquiet
  intro f hf
  obtain ⟨i, w, hw, -⟩ := hs.watched f hf
  have hsettles := hs.settles f hf w hw
  unfold FontState.pending at hsettles
  rw [hqueue, hwork] at hsettles
  have hflag : f.m_isPathAdded = s.readable f.m_path := hsettles
  rw [hs.inPath f.m_path, ← hflag]
  constructor
  · rintro ⟨g, hg | hg, hpath, hadded⟩
    · rwa [KeyedSet.eq_of_key hg hf (congrArg FolderPath.str hpath)] at hadded
    · rw [hwork] at hg
      cases hg
  · exact fun hadded => ⟨f, .inl hf, rfl, hadded⟩

/-- At rest the font path is right. -/
theorem font_path_converges {tree : DirTree (Option Root) Name} {fontsDir : Inode → Option Bool} {labels : List FontLabel}
    {s : FontState} (hnamed : ∀ i, tree.child i c_fontsdir ≠ none → fontsDir i = none)
    (h : Run SteadyStep (.start tree fontsDir) labels s) (hquiet : s.Quiet) : s.PathRight :=
  (h.invariant (I := Following) (fun _ _ _ hs hstep => hs.following_step hstep) (Following.following_start hnamed)).pathRight
    hquiet

/-- A folder is made, and then its `fonts.dir`. -/
def mkdirAndCreate : List FontLabel := startAndMkdir ++ .change (.create 1 true) :: monitorSteps 4

theorem new_fonts_are_added : ∃ s, Run SteadyStep (.start bareTree fun _ => none) mkdirAndCreate s ∧ s.PathRight ∧
    s.fontPath = [⟨.ALT_DISTRO_FONT_PATH, [dirA]⟩] := by
  have hend : (follow FontState.step (fun s l => s.granted l ∧ s.steady l) (.start bareTree fun _ => none) mkdirAndCreate).any
      (fun s => s.Quiet ∧ s.fontPath = [⟨.ALT_DISTRO_FONT_PATH, [dirA]⟩]) := by
    decide +kernel
  obtain ⟨s, h, hs⟩ := Run.exists_of_follow hend
  obtain ⟨hquiet, hpath⟩ := of_decide_eq_true hs
  have hrun : Run SteadyStep (.start bareTree fun _ => none) mkdirAndCreate s :=
    h.mono fun s l t hstep => and_assoc.2 ⟨hstep.1, of_decide_eq_true hstep.2⟩
  exact ⟨s, hrun, font_path_converges (fun _ _ => rfl) hrun hquiet, hpath⟩

/-- `access` finds no `fonts.dir`, then there is one, and then the folder is watched. -/
def createUnwatched : List FontLabel := monitorSteps 3 ++ .change (.create 0 true) :: monitorSteps 3

theorem unwatched_fonts_are_missed : ∃ s, Run GrantedStep (.start bareTree fun _ => none) createUnwatched s ∧ s.Quiet ∧
    ¬ s.PathRight := by
  have hend : (follow FontState.step FontState.granted (.start bareTree fun _ => none) createUnwatched).any
      (fun s => s.Quiet ∧ s.fontPath = [] ∧
        (s.m_fontMonitorFolders.find (FolderPath.str ⟨.ALT_DISTRO_FONT_PATH, []⟩)).any (fun f => s.readable f.m_path)) := by
    decide +kernel
  obtain ⟨s, hrun, hs⟩ := Run.exists_of_follow hend
  obtain ⟨hquiet, hpath, hfind⟩ := of_decide_eq_true hs
  refine ⟨s, hrun, hquiet, fun hright => ?_⟩
  obtain ⟨f, hf, hreadable⟩ := (Option.any_eq_true _ _).1 hfind
  have hin := (hright f (KeyedSet.find_eq_some.1 hf).1).2 hreadable
  rw [hpath] at hin
  cases hin

end Wslg.Wslgd
