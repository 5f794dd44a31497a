import Wslg.Lib.Mirror
/-!
# Steps of a mirror

Every change of the tree, and everything the mirror does, keeps it good.
-/

namespace Lib.Mirror

variable {R N : Type} {m : Mirror R N} {wanted : Place R N → Prop} {p q : Place R N} {i k : Inode} {n : N} {w : Wd}

/-! ## Reports -/

theorem Arrived.append (h : m.Arrived w n) {m' : Mirror R N} {more : List (Note N)} (hnotes : m'.notes = m.notes ++ more)
    (hmore : ⟨w, n, false⟩ ∉ more) : m'.Arrived w n := by
  obtain ⟨l₁, l₂, hl, hnone⟩ := h
  refine ⟨l₁, l₂ ++ more, by rw [hnotes, hl, List.append_assoc, List.cons_append], fun hmem => ?_⟩
  rcases List.mem_append.1 hmem with hmem | hmem
  · exact hnone hmem
  · exact hmore hmem

/-- Behind the first report, unless it was this one. -/
theorem Arrived.tail (h : m.Arrived w n) {u : Mirror R N} {x : Note N} (hnotes : m.notes = x :: u.notes) :
    u.Arrived w n ∨ x = ⟨w, n, true⟩ ∧ ⟨w, n, false⟩ ∉ u.notes := by
  obtain ⟨l₁, l₂, hl, hnone⟩ := h
  rw [hnotes] at hl
  cases l₁ with
  | nil =>
    obtain ⟨rfl, rfl⟩ := List.cons.inj hl
    exact .inr ⟨rfl, hnone⟩
  | cons y l₁ =>
    obtain ⟨-, hl⟩ := List.cons.inj hl
    exact .inl ⟨l₁, l₂, hl, hnone⟩

theorem Doomed.mono (h : m.Doomed p) {m' : Mirror R N} (hentry : ∀ a w, m.entry a = some w → m'.entry a = some w)
    (hnotes : ∀ x ∈ m.notes, x ∈ m'.notes) : m'.Doomed p := by
  obtain ⟨a, n, w, hu, ha, hn⟩ := h
  exact ⟨a, n, w, hu, hentry a w ha, hnotes _ hn⟩

/-! ## The tree -/

/-- What the watch of a directory reports. -/
def report (m : Mirror R N) (i : Inode) (n : N) (arrives : Bool) : List (Note N) :=
  match m.watches.wdOf i with
  | none => []
  | some w => [⟨w, n, arrives⟩]

theorem mem_report {arrives : Bool} {x : Note N} :
    x ∈ m.report i n arrives ↔ ∃ w, (i, w) ∈ m.watches.marks ∧ x = ⟨w, n, arrives⟩ := by
  unfold report
  cases hw : m.watches.wdOf i with
  | none => simp [Watches.not_mem_of_wdOf hw]
  | some w =>
    constructor
    · intro hx
      exact ⟨w, Watches.wdOf_eq_some.1 hw, List.mem_singleton.1 hx⟩
    · rintro ⟨w', hw', rfl⟩
      rw [m.watches.inode_unique i w w' (Watches.wdOf_eq_some.1 hw) hw']
      exact List.mem_singleton_self _

theorem report_used {arrives : Bool} {x : Note N} (h : x ∈ m.report i n arrives) : x.wd < m.watches.next := by
  obtain ⟨w, hw, rfl⟩ := mem_report.1 h
  exact m.watches.used i w hw

/-- A directory comes into another. -/
def join (m : Mirror R N) (l : DirLink N) (h : m.tree.CanLink l) : Mirror R N :=
  { m with tree := m.tree.link l h, notes := m.notes ++ m.report l.dir l.name true }

section Cut

variable [DecidableEq N]

def forget (i : Inode) (n : N) (x : Place R N × Inode × List N) : Place R N × Inode × List N :=
  (x.1, x.2.1, if x.2.1 = i then x.2.2.filter (· ≠ n) else x.2.2)

/-- A directory goes from another. -/
def cut (m : Mirror R N) (i : Inode) (n : N) (told : List (Note N)) : Mirror R N :=
  { m with
    tree := m.tree.unlink i n
    notes := m.notes ++ told
    reading := m.reading.map (forget i n) }

/-- If it has an entry, its departure is told. -/
theorem Good.cut (h : m.Good wanted) (i : Inode) (n : N) {told : List (Note N)} (htold : told ⊆ m.report i n false)
    (hall : ∀ k p w, ⟨i, n, k⟩ ∈ m.tree.links → (i, w) ∈ m.watches.marks → m.entry p = some w →
      m.entry (p.sub n) ≠ none → ⟨w, n, false⟩ ∈ told) : (m.cut i n told).Good wanted := by
  have hdoomed : ∀ p, m.Doomed p → (m.cut i n told).Doomed p :=
    fun p hp => hp.mono (fun _ _ ha => ha) fun x hx => List.mem_append_left _ hx
  refine { h with note_used := ?_, reading_in := ?_, linked := ?_, listed := ?_ }
  · intro x hx
    rcases List.mem_append.1 hx with hx | hx
    · exact h.note_used x hx
    · exact report_used (htold hx)
  · intro p d unread hmem
    obtain ⟨⟨p', d', u'⟩, hold, heq⟩ := List.mem_map.1 hmem
    cases heq
    exact h.reading_in _ _ _ hold
  · intro p n' w w' hp hpn
    rcases h.linked p n' w w' hp hpn with ⟨i', k, hi', hlink, hk⟩ | hd
    · by_cases hsame : i' = i ∧ n' = n
      · -- the link itself is cut, and its departure reported
        obtain ⟨rfl, rfl⟩ := hsame
        refine .inr ⟨p, n', w', Place.under_refl _, hp, List.mem_append_right _ (hall k p w' hlink hi' hp ?_)⟩
        exact hpn ▸ Option.some_ne_none w
      · exact .inl ⟨i', k, hi', DirTree.mem_unlink.2 ⟨hlink, hsame⟩, hk⟩
    · exact .inr (hdoomed _ hd)
  · intro q w i' n' k hq hw hlink hwanted
    obtain ⟨hlink, hne⟩ := DirTree.mem_unlink.1 hlink
    have hother : ⟨w, n', false⟩ ∉ told := by
      intro hmem
      obtain ⟨w', hw', heq⟩ := mem_report.1 (htold hmem)
      cases heq
      exact hne ⟨m.watches.wd_unique _ _ _ hw hw', rfl⟩
    rcases h.listed q w i' n' k hq hw hlink hwanted with ha | ⟨hnone, hheld⟩ | hd
    · exact .inl (ha.append rfl hother)
    · refine .inr (.inl ⟨fun hmem => ?_, ?_⟩)
      · rcases List.mem_append.1 hmem with hmem | hmem
        · exact hnone hmem
        · exact hother hmem
      · rcases hheld with hin | hin | hin | ⟨unread, hin, hn'⟩
        · exact .inl hin
        · exact .inr (.inl hin)
        · exact .inr (.inr (.inl hin))
        · refine .inr (.inr (.inr ⟨_, List.mem_map.2 ⟨_, hin, rfl⟩, ?_⟩))
          -- only who reads this directory forgets the name, and only this name
          by_cases hi : i' = i
          · have hne' : n' ≠ n := fun heq => hne ⟨hi, heq⟩
            simp only [hi, if_true]
            exact List.mem_filter.2 ⟨hn', by simpa using hne'⟩
          · simpa only [if_neg hi] using hn'
    · exact .inr (.inr (hdoomed _ hd))

end Cut

theorem Good.join (h : m.Good wanted) (l : DirLink N) (hl : m.tree.CanLink l) : (m.join l hl).Good wanted := by
  have hdoomed : ∀ p, m.Doomed p → (m.join l hl).Doomed p :=
    fun p hp => hp.mono (fun _ _ ha => ha) fun x hx => List.mem_append_left _ hx
  have hother : ∀ w n', ⟨w, n', false⟩ ∉ m.report l.dir l.name true := by
    intro w n' hmem
    obtain ⟨w', -, heq⟩ := mem_report.1 hmem
    cases heq
  refine { h with note_used := ?_, linked := ?_, listed := ?_ }
  · intro x hx
    rcases List.mem_append.1 hx with hx | hx
    · exact h.note_used x hx
    · exact report_used hx
  · intro p n' w w' hp hpn
    rcases h.linked p n' w w' hp hpn with ⟨i', k, hi', hlink, hk⟩ | hd
    · exact .inl ⟨i', k, hi', List.mem_cons_of_mem _ hlink, hk⟩
    · exact .inr (hdoomed _ hd)
  · intro q w i' n' k hq hw hlink hwanted
    rcases List.mem_cons.1 hlink with rfl | hlink
    -- of the new link the arrival is the last report
    · have hwd : m.watches.wdOf i' = some w := Watches.wdOf_eq_some.2 hw
      exact .inl ⟨m.notes, [], by rw [Mirror.join, report, hwd], by simp⟩
    · rcases h.listed q w i' n' k hq hw hlink hwanted with ha | ⟨hnone, hheld⟩ | hd
      · exact .inl (ha.append rfl (hother w n'))
      · refine .inr (.inl ⟨fun hmem => ?_, hheld⟩)
        rcases List.mem_append.1 hmem with hmem | hmem
        · exact hnone hmem
        · exact hother w n' hmem
      · exact .inr (.inr (hdoomed _ hd))

theorem Good.grow (h : m.Good wanted) : ({ m with tree := m.tree.alloc } : Mirror R N).Good wanted := { h with }

/-! ## Watches -/

/-- A directory that is not in the tree is watched no more. -/
theorem Good.gone (h : m.Good wanted) (hroot : ∀ r, m.tree.root r ≠ some k)
    (hlinks : ∀ l ∈ m.tree.links, l.dir ≠ k ∧ l.target ≠ k) :
    ({ m with watches := m.watches.drop k } : Mirror R N).Good wanted := by
  refine { h with root_at := ?_, linked := ?_, listed := ?_ }
  · intro r w hr
    obtain ⟨i, hi, hw⟩ := h.root_at r w hr
    exact ⟨i, hi, Watches.mem_drop.2 ⟨hw, fun heq => hroot r (heq ▸ hi)⟩⟩
  · intro p n w w' hp hpn
    rcases h.linked p n w w' hp hpn with ⟨i', k', hi', hlink, hk⟩ | hd
    · obtain ⟨hdir, htarget⟩ := hlinks _ hlink
      exact .inl ⟨i', k', Watches.mem_drop.2 ⟨hi', hdir⟩, hlink, Watches.mem_drop.2 ⟨hk, htarget⟩⟩
    · exact .inr hd
  · intro q w i n k' hq hw hlink hwanted
    exact h.listed q w i n k' hq (Watches.mem_drop.1 hw).1 hlink hwanted

/-- A watch that no entry has is removed. -/
theorem Good.unwatch (h : m.Good wanted) (hentry : ∀ p, m.entry p ≠ some w) :
    ({ m with watches := m.watches.remove w } : Mirror R N).Good wanted := by
  have hne : ∀ {p w'}, m.entry p = some w' → w' ≠ w := fun hp heq => hentry _ (heq ▸ hp)
  refine { h with root_at := ?_, linked := ?_, listed := ?_ }
  · intro r w' hr
    obtain ⟨i, hi, hw⟩ := h.root_at r w' hr
    exact ⟨i, hi, Watches.mem_remove.2 ⟨hw, hne hr⟩⟩
  · intro p n w₁ w₂ hp hpn
    rcases h.linked p n w₁ w₂ hp hpn with ⟨i', k', hi', hlink, hk⟩ | hd
    · exact .inl ⟨i', k', Watches.mem_remove.2 ⟨hi', hne hp⟩, hlink, Watches.mem_remove.2 ⟨hk, hne hpn⟩⟩
    · exact .inr hd
  · intro q w' i n k' hq hw hlink hwanted
    exact h.listed q w' i n k' hq (Watches.mem_remove.1 hw).1 hlink hwanted

/-! ## Reports that are handled -/

section Handled

variable {rest : List (Note N)}

theorem Good.note_mono (h : m.Good wanted) {x : Note N} (hnotes : m.notes = x :: rest) :
    ∀ y ∈ rest, y.wd < m.watches.next := fun y hy => h.note_used y (hnotes ▸ List.mem_cons_of_mem _ hy)

/-- A departure that is still reported. -/
theorem Doomed.tail (h : m.Doomed p) {m' : Mirror R N} {x : Note N} (hnotes : m.notes = x :: m'.notes)
    (hentry : m'.entry = m.entry) (hx : ∀ a, m.entry a = some x.wd → x.arrives = false → False) : m'.Doomed p := by
  obtain ⟨a, n, w, hu, ha, hn⟩ := h
  rw [hnotes] at hn
  rcases List.mem_cons.1 hn with rfl | hn
  · exact (hx a ha rfl).elim
  · exact ⟨a, n, w, hu, hentry ▸ ha, hn⟩

/-- The directory that arrived is added next. -/
theorem Good.arrive (h : m.Good wanted) (hnotes : m.notes = ⟨w, n, true⟩ :: rest) (hwork : m.work = .idle)
    (hq : m.entry q = some w) (hwanted : wanted (q.sub n)) :
    ({ m with notes := rest, work := .adding (q.sub n) } : Mirror R N).Good wanted := by
  have hdoomed : ∀ p, m.Doomed p → ({ m with notes := rest, work := .adding (q.sub n) } : Mirror R N).Doomed p :=
    fun p hp => hp.tail hnotes rfl fun _ _ hf => by cases hf
  have hadding : ∀ p, ({ m with notes := rest, work := .adding (q.sub n) } : Mirror R N).Adding p →
      p = q.sub n ∨ m.Adding p := by
    rintro p (hp | hp)
    · exact .inl (MirrorWork.adding.inj hp).symm
    · exact .inr (.inr hp)
  have hkeep : ∀ p, m.Adding p → ({ m with notes := rest, work := .adding (q.sub n) } : Mirror R N).Adding p := by
    rintro p (hp | hp)
    · rw [hwork] at hp
      cases hp
    · exact .inr hp
  refine
    { h with
      note_used := h.note_mono hnotes
      root_in := ?_
      adding_want := ?_
      adding_up := ?_
      opening_in := ?_
      linked := ?_
      listed := ?_ }
  · intro r hr hroot
    exact (h.root_in r hr hroot).imp_right (hkeep _)
  · intro p hp
    rcases hadding p hp with rfl | hp
    · exact hwanted
    · exact h.adding_want p hp
  · intro p n' hp
    rcases hadding _ hp with heq | hp
    · obtain ⟨rfl, -⟩ := Place.sub_inj heq
      rw [hq]
      exact Option.some_ne_none w
    · exact h.adding_up p n' hp
  · intro p hp
    cases hp
  · intro p n' w₁ w₂ hp hpn
    exact (h.linked p n' w₁ w₂ hp hpn).imp_right (hdoomed _)
  · intro q' w' i n' k hq' hw hlink hwanted'
    rcases h.listed q' w' i n' k hq' hw hlink hwanted' with ha | ⟨hnone, hheld⟩ | hd
    · rcases ha.tail (u := { m with notes := rest, work := .adding (q.sub n) }) hnotes with ha | ⟨heq, hnone⟩
      · exact .inl ha
      -- this was the last report of that name: what it promised is added now
      · cases heq
        obtain rfl := h.wd_inj q q' w hq hq'
        exact .inr (.inl ⟨hnone, .inr (.inl (.inl rfl))⟩)
    · refine .inr (.inl ⟨fun hmem => hnone (hnotes ▸ List.mem_cons_of_mem _ hmem), ?_⟩)
      rcases hheld with hin | hin | hin | hin
      · exact .inl hin
      · exact .inr (.inl (hkeep _ hin))
      · rw [hwork] at hin
        cases hin
      · exact .inr (.inr (.inr hin))
    · exact .inr (.inr (hdoomed _ hd))

/-- A report that changes nothing: of an arrival that nobody waits for, or of a departure that dooms nobody. -/
theorem Good.pass (h : m.Good wanted) {x : Note N} (hnotes : m.notes = x :: rest)
    (harrival : x.arrives = true → ∀ q, m.entry q = some x.wd → ¬ wanted (q.sub x.name))
    (hdeparture : ∀ a, m.entry a = some x.wd → x.arrives = false → False) :
    ({ m with notes := rest } : Mirror R N).Good wanted := by
  have hdoomed : ∀ p, m.Doomed p → ({ m with notes := rest } : Mirror R N).Doomed p :=
    fun p hp => hp.tail hnotes rfl hdeparture
  refine { h with note_used := h.note_mono hnotes, linked := ?_, listed := ?_ }
  · intro p n' w₁ w₂ hp hpn
    exact (h.linked p n' w₁ w₂ hp hpn).imp_right (hdoomed _)
  · intro q' w' i n' k hq' hw hlink hwanted
    rcases h.listed q' w' i n' k hq' hw hlink hwanted with ha | ⟨hnone, hheld⟩ | hd
    · rcases ha.tail (u := { m with notes := rest }) hnotes with ha | ⟨rfl, -⟩
      · exact .inl ha
      · exact (harrival rfl q' hq' hwanted).elim
    · exact .inr (.inl ⟨fun hmem => hnone (hnotes ▸ List.mem_cons_of_mem _ hmem), hheld⟩)
    · exact .inr (.inr (hdoomed _ hd))

/-- Nobody waits for that arrival. -/
theorem Good.ignore (h : m.Good wanted) (hnotes : m.notes = ⟨w, n, true⟩ :: rest)
    (hq : ∀ q, m.entry q = some w → ¬ wanted (q.sub n)) : ({ m with notes := rest } : Mirror R N).Good wanted :=
  h.pass hnotes (fun _ => hq) fun _ _ hf => by cases hf

/-- Nobody has the descriptor of that departure. -/
theorem Good.unknown (h : m.Good wanted) (hnotes : m.notes = ⟨w, n, false⟩ :: rest) (hq : ∀ q, m.entry q ≠ some w) :
    ({ m with notes := rest } : Mirror R N).Good wanted :=
  h.pass hnotes (fun hf => by cases hf) fun a ha _ => hq a ha

end Handled

/-! ### The departure of an entry -/

/-- `m'` is `m` without the entry at `q.sub n`, of which the first report says that it went.
No entry is below it, and the mirror has nothing else to do. -/
structure Dropped (m m' : Mirror R N) (q : Place R N) (n : N) (w : Wd) : Prop where
  idle : m.work = .idle
  noStarts : m.starts = []
  noReading : m.reading = []
  upper : m.entry q = some w
  below : ∀ p, p.Under (q.sub n) → p ≠ q.sub n → m.entry p = none
  notes : m.notes = ⟨w, n, false⟩ :: m'.notes
  tree : m'.tree = m.tree
  watches : m'.watches = m.watches
  work : m'.work = m.work
  starts : m'.starts = m.starts
  reading : m'.reading = m.reading
  absent : m'.entry (q.sub n) = none
  other : ∀ p, p ≠ q.sub n → m'.entry p = m.entry p

namespace Dropped

variable {m' : Mirror R N} {w' : Wd} {n' : N} (e : Dropped m m' q n w)

include e

theorem old (h : m'.entry p = some w') : p ≠ q.sub n ∧ m.entry p = some w' := by
  have hne : p ≠ q.sub n := by
    rintro rfl
    cases e.absent.symm.trans h
  exact ⟨hne, e.other p hne ▸ h⟩

theorem ne_of_sub (h : m'.entry (p.sub n') ≠ none) : p ≠ q.sub n := by
  rintro rfl
  refine h ?_
  rw [e.other _ Place.sub_ne_self]
  exact e.below _ ((Place.under_refl _).sub n') Place.sub_ne_self

theorem was (h : m'.entry p ≠ none) : m.entry p ≠ none := by
  obtain ⟨w', hw'⟩ := Option.ne_none_iff_exists'.1 h
  rw [(e.old hw').2]
  exact Option.some_ne_none w'

theorem not_adding : ¬ m.Adding p := by
  rintro (h | h)
  · cases e.idle.symm.trans h
  · rw [e.noStarts] at h
    cases h

theorem not_adding_after : ¬ m'.Adding p := by
  rintro (h | h)
  · exact e.not_adding (.inl (e.work ▸ h))
  · exact e.not_adding (.inr (e.starts ▸ h))

theorem note_of {x : Note N} (h : x ∈ m'.notes) : x ∈ m.notes := by
  rw [e.notes]
  exact List.mem_cons_of_mem _ h

/-- Another departure dooms what is left, not this one. -/
theorem doomed (hg : m.Good wanted) (hp : m'.entry p = some w') (h : m.Doomed p) : m'.Doomed p := by
  obtain ⟨a, n', wa, hu, ha, hmem⟩ := h
  obtain ⟨hne, hp⟩ := e.old hp
  -- the departure that was handled is of a place that `p` is not under
  have hunder : ¬ p.Under (q.sub n) := by
    intro hunder
    cases (e.below p hunder hne).symm.trans hp
  have hmem' : ⟨wa, n', false⟩ ∈ m'.notes := by
    rw [e.notes] at hmem
    rcases List.mem_cons.1 hmem with heq | hmem
    · cases heq
      obtain rfl := hg.wd_inj a q _ ha e.upper
      exact (hunder hu).elim
    · exact hmem
  refine ⟨a, n', wa, hu, ?_, hmem'⟩
  rw [e.other, ha]
  rintro rfl
  exact hunder (Place.under_sub hu)

theorem held (hp : m'.entry p = some w') (hno : ⟨w', n', false⟩ ∉ m.notes) (h : m.Held p i n') : m'.Held p i n' := by
  rcases h with hin | hin | hin | ⟨unread, hin, -⟩
  · refine .inl ?_
    rwa [e.other]
    -- the entry that was dropped is reported as gone, which `hno` excludes
    intro heq
    obtain ⟨rfl, rfl⟩ := Place.sub_inj heq
    obtain rfl := Option.some.inj (e.upper.symm.trans (e.old hp).2)
    exact hno (e.notes ▸ List.mem_cons_self)
  · exact (e.not_adding hin).elim
  · cases e.idle.symm.trans hin
  · rw [e.noReading] at hin
    cases hin

theorem listed (hg : m.Good wanted) (hp : m'.entry p = some w') (hw : (i, w') ∈ m.watches.marks)
    (hlink : ⟨i, n', k⟩ ∈ m.tree.links) (hwanted : wanted (p.sub n')) :
    m'.Arrived w' n' ∨ (⟨w', n', false⟩ ∉ m'.notes ∧ m'.Held p i n') ∨ m'.Doomed p := by
  rcases hg.listed p w' i n' k (e.old hp).2 hw hlink hwanted with ha | ⟨hno, hheld⟩ | hd
  · rcases ha.tail e.notes with ha | ⟨heq, -⟩
    · exact .inl ha
    · cases heq
  · exact .inr (.inl ⟨fun hmem => hno (e.note_of hmem), e.held hp hno hheld⟩)
  · exact .inr (.inr (e.doomed hg hp hd))

theorem good (hg : m.Good wanted) : m'.Good wanted where
  wd_inj p₁ p₂ w' h₁ h₂ := hg.wd_inj p₁ p₂ w' (e.old h₁).2 (e.old h₂).2
  wd_used p w' hp := e.watches ▸ hg.wd_used p w' (e.old hp).2
  note_used x hx := e.watches ▸ hg.note_used x (e.note_of hx)
  up p n' hp := by
    rw [e.other p (e.ne_of_sub hp)]
    exact hg.up p n' (e.was hp)
  want p hp := hg.want p (e.was hp)
  root_at r w' hr := by
    rw [e.tree, e.watches]
    exact hg.root_at r w' (e.old hr).2
  root_in r hr hroot := by
    rcases hg.root_in r hr (e.tree ▸ hroot) with hin | hin
    · exact .inl (by rwa [e.other _ Place.sub_ne_root.symm])
    · exact (e.not_adding hin).elim
  adding_want p hp := (e.not_adding_after hp).elim
  adding_up p n' hp := (e.not_adding_after hp).elim
  opening_in p hp := by cases (e.work.trans e.idle).symm.trans hp
  reading_in p d unread hp := by
    rw [e.reading, e.noReading] at hp
    cases hp
  linked p n' w₁ w₂ hp hpn := by
    rcases hg.linked p n' w₁ w₂ (e.old hp).2 (e.old hpn).2 with hl | hd
    · rw [Linked, e.tree, e.watches]
      exact .inl hl
    · exact .inr (e.doomed hg hpn hd)
  listed p w' i n' k hp hw hlink hwanted := e.listed hg hp (e.watches ▸ hw) (e.tree ▸ hlink) hwanted

end Dropped

/-- The entry of a directory that went is dropped. No entry may be below it. -/
theorem Good.depart [DecidableEq R] [DecidableEq N] {rest : List (Note N)} (h : m.Good wanted)
    (hnotes : m.notes = ⟨w, n, false⟩ :: rest) (hwork : m.work = .idle) (hstarts : m.starts = [])
    (hreading : m.reading = []) (hq : m.entry q = some w)
    (hbelow : ∀ p, p.Under (q.sub n) → p ≠ q.sub n → m.entry p = none) :
    ({ m with notes := rest, entry := Function.update m.entry (q.sub n) none } : Mirror R N).Good wanted := by
  refine Dropped.good (m := m) (q := q) (n := n) (w := w) ?_ h
  exact {
    idle := hwork
    noStarts := hstarts
    noReading := hreading
    upper := hq
    below := hbelow
    notes := hnotes
    tree := rfl
    watches := rfl
    work := rfl
    starts := rfl
    reading := rfl
    absent := Function.update_self ..
    other := fun p hne => Function.update_of_ne hne .. }

/-! ## Turns -/

/-- The same mirror, about to do something else. -/
def turn (m : Mirror R N) (work : MirrorWork R N) (starts : List (Place R N))
    (reading : List (Place R N × Inode × List N)) : Mirror R N :=
  { m with work := work, starts := starts, reading := reading }

section Turns

variable {work : MirrorWork R N} {starts : List (Place R N)} {reading : List (Place R N × Inode × List N)}

/-- Whoever was held is still held, or its parent will go. -/
theorem Good.turn (h : m.Good wanted)
    (hroot : ∀ r, m.tree.root r ≠ none → m.Adding (r, []) →
      m.entry (r, []) ≠ none ∨ (m.turn work starts reading).Adding (r, []))
    (hadding : ∀ p, (m.turn work starts reading).Adding p → wanted p ∧ ∀ q n, p = q.sub n → m.entry q ≠ none)
    (hopening : ∀ p, work = .opening p → m.entry p ≠ none)
    (hreading : ∀ p d unread, (p, d, unread) ∈ reading → m.entry p ≠ none ∧ ∀ n, wanted (p.sub n))
    (hheld : ∀ q w i n k, m.entry q = some w → (i, w) ∈ m.watches.marks → ⟨i, n, k⟩ ∈ m.tree.links →
      wanted (q.sub n) → m.Held q i n → (m.turn work starts reading).Held q i n ∨ m.Doomed q) : (m.turn work starts reading).Good wanted := by
  refine
    { h with
      root_in := ?_
      adding_want := fun p hp => (hadding p hp).1
      adding_up := fun p n hp => (hadding _ hp).2 p n rfl
      opening_in := hopening
      reading_in := hreading
      listed := ?_ }
  · intro r hr hne
    rcases h.root_in r hr hne with hin | hin
    · exact .inl hin
    · exact hroot r hne hin
  · intro q w i n k hq hw hlink hwanted
    rcases h.listed q w i n k hq hw hlink hwanted with ha | ⟨hnone, hin⟩ | hd
    · exact .inl ha
    -- only what was held can be lost by the turn
    · rcases hheld q w i n k hq hw hlink hwanted hin with hin | hd
      · exact .inr (.inl ⟨hnone, hin⟩)
      · exact .inr (.inr hd)
    · exact .inr (.inr hd)

variable [DecidableEq N]

theorem Good.resolves (h : m.Good wanted) (hq : m.entry q = some w) (hw : (i, w) ∈ m.watches.marks) :
    m.tree.resolve q.1 q.2 = some i ∨ m.Doomed q := by
  rcases h.alive hq with ⟨i', hi', hw'⟩ | hd
  · obtain rfl := m.watches.wd_unique _ _ _ hw hw'
    exact .inl hi'
  · exact .inr hd

/-- A directory that is there is found by its path. -/
theorem Good.resolves_sub (h : m.Good wanted) (hq : m.entry q = some w) (hw : (i, w) ∈ m.watches.marks)
    (hlink : ⟨i, n, k⟩ ∈ m.tree.links) : m.tree.resolve (q.sub n).1 (q.sub n).2 = some k ∨ m.Doomed q :=
  (h.resolves hq hw).imp_left fun hi => DirTree.resolve_concat_eq_some.2 ⟨i, hi, hlink⟩

/-- What is to be added is there already, or is not in the tree. -/
theorem Good.added (h : m.Good wanted) (hwork : m.work = .adding p)
    (hp : m.entry p ≠ none ∨ m.tree.resolve p.1 p.2 = none) : (m.turn .idle m.starts m.reading).Good wanted := by
  have hcases : ∀ p', m.Adding p' → p' = p ∨ (m.turn .idle m.starts m.reading).Adding p' := by
    rintro p' (hp' | hp')
    · rw [hwork] at hp'
      cases hp'
      exact .inl rfl
    · exact .inr (.inr hp')
  have hback : ∀ p', (m.turn .idle m.starts m.reading).Adding p' → m.Adding p' := by
    rintro p' (hp' | hp')
    · cases hp'
    · exact .inr hp'
  refine h.turn (fun r hne hin => ?_) (fun p' hp' => ?_) (fun p' hp' => by cases hp') h.reading_in ?_
  · rcases hcases _ hin with rfl | hin
    · exact .inl (hp.resolve_right (by rwa [DirTree.resolve_nil]))
    · exact .inr hin
  · exact ⟨h.adding_want p' (hback p' hp'), fun q n hq => h.adding_up q n (hq ▸ hback p' hp')⟩
  · intro q w i n k hq hw hlink _ hheld
    rcases hheld with hin | hin | hin | hin
    · exact .inl (.inl hin)
    · rcases hcases _ hin with rfl | hin
      · rcases hp with hp | hp
        · exact .inl (.inl hp)
        -- the link is there, so its path resolves unless the parent will go
        · rcases h.resolves_sub hq hw hlink with hres | hd
          · rw [hp] at hres
            cases hres
          · exact .inr hd
      · exact .inl (.inr (.inl hin))
    · rw [hwork] at hin
      cases hin
    · exact .inl (.inr (.inr (.inr hin)))

/-- A directory is opened, or is not in the tree. -/
theorem Good.opened (h : m.Good wanted) (hwork : m.work = .opening p)
    {reading : List (Place R N × Inode × List N)} (hwanted : ∀ n, wanted (p.sub n))
    (hreading : reading = match m.tree.resolve p.1 p.2 with
      | none => m.reading
      | some d => (p, d, m.tree.names d) :: m.reading) : (m.turn .idle m.starts reading).Good wanted := by
  have hin : m.entry p ≠ none := h.opening_in p hwork
  have hmem : ∀ x ∈ m.reading, x ∈ reading := by
    intro x hx
    rw [hreading]
    cases m.tree.resolve p.1 p.2 with
    | none => exact hx
    | some d => exact List.mem_cons_of_mem _ hx
  have hadding : ∀ p', (m.turn .idle m.starts reading).Adding p' → m.Adding p' := by
    rintro p' (hp' | hp')
    · cases hp'
    · exact .inr hp'
  have hkeep : ∀ p', m.Adding p' → (m.turn .idle m.starts reading).Adding p' := by
    rintro p' (hp' | hp')
    · rw [hwork] at hp'
      cases hp'
    · exact .inr hp'
  refine h.turn (fun r _ hr => .inr (hkeep _ hr)) (fun p' hp' => ?_) (fun p' hp' => by cases hp') ?_ ?_
  · exact ⟨h.adding_want p' (hadding p' hp'), fun q n hq => h.adding_up q n (hq ▸ hadding p' hp')⟩
  · intro p' d unread hx
    rw [hreading] at hx
    cases hres : m.tree.resolve p.1 p.2 with
    | none =>
      rw [hres] at hx
      exact h.reading_in p' d unread hx
    | some d' =>
      rw [hres] at hx
      rcases List.mem_cons.1 hx with heq | hx
      · cases heq
        exact ⟨hin, hwanted⟩
      · exact h.reading_in p' d unread hx
  · intro q w i n k hq hw hlink _ hheld
    rcases hheld with hx | hx | hx | ⟨unread, hx, hn⟩
    · exact .inl (.inl hx)
    · exact .inl (.inr (.inl (hkeep _ hx)))
    · rw [hwork] at hx
      cases hx
      -- it is the directory that is opened, and all its names are to be read
      rcases h.resolves hq hw with hres | hd
      · refine .inl (.inr (.inr (.inr ⟨m.tree.names i, ?_, DirTree.mem_names.2 ⟨k, hlink⟩⟩)))
        rw [Mirror.turn, hreading, hres]
        exact List.mem_cons_self
      · exact .inr hd
    · exact .inl (.inr (.inr (.inr ⟨unread, hmem _ hx, hn⟩)))

/-- Of this directory only one name is wanted; it is added if it is there. -/
theorem Good.looked (h : m.Good wanted) (hwork : m.work = .opening p) (honly : ∀ n', wanted (p.sub n') → n' = n)
    (hwanted : wanted (p.sub n))
    (hwork' : work = if (m.tree.resolve (p.sub n).1 (p.sub n).2).isSome then .adding (p.sub n) else .idle) :
    (m.turn work m.starts m.reading).Good wanted := by
  have hin : m.entry p ≠ none := h.opening_in p hwork
  have hkeep : ∀ p', m.Adding p' → (m.turn work m.starts m.reading).Adding p' := by
    rintro p' (hp' | hp')
    · rw [hwork] at hp'
      cases hp'
    · exact .inr hp'
  refine h.turn (fun r _ hr => .inr (hkeep _ hr)) ?_ ?_ h.reading_in ?_
  · rintro p' (hp' | hp')
    · change work = .adding p' at hp'
      rw [hwork'] at hp'
      split at hp'
      · cases hp'
        exact ⟨hwanted, fun q n' hq => (Place.sub_inj hq).1 ▸ hin⟩
      · cases hp'
    · exact ⟨h.adding_want p' (.inr hp'), fun q n' hq => h.adding_up q n' (hq ▸ .inr hp')⟩
  · intro p' hp'
    rw [hwork'] at hp'
    split at hp' <;> cases hp'
  · intro q w i n' k hq hw hlink hwanted' hheld
    rcases hheld with hx | hx | hx | hx
    · exact .inl (.inl hx)
    · exact .inl (.inr (.inl (hkeep _ hx)))
    · rw [hwork] at hx
      cases hx
      -- the only name that counts was looked up
      obtain rfl := honly n' hwanted'
      rcases h.resolves_sub hq hw hlink with hres | hd
      · refine .inl (.inr (.inl (.inl ?_)))
        rw [Mirror.turn, hwork', hres]
        rfl
      · exact .inr hd
    · exact .inl (.inr (.inr (.inr hx)))

/-- The next name of a directory that is read. -/
theorem Good.next (h : m.Good wanted) (hwork : m.work = .idle) {d : Inode} {unread : List N}
    {rest : List (Place R N × Inode × List N)} (hreading : m.reading = (p, d, unread) :: rest) (n : N) :
    (m.turn (.adding (p.sub n)) m.starts ((p, d, unread.erase n) :: rest)).Good wanted := by
  obtain ⟨hin, hwanted⟩ := h.reading_in p d unread (hreading ▸ List.mem_cons_self)
  have hkeep : ∀ p', m.Adding p' → (m.turn (.adding (p.sub n)) m.starts ((p, d, unread.erase n) :: rest)).Adding p' := by
    rintro p' (hp' | hp')
    · rw [hwork] at hp'
      cases hp'
    · exact .inr hp'
  refine h.turn (fun r _ hr => .inr (hkeep _ hr)) ?_ (fun p' hp' => by cases hp') ?_ ?_
  · rintro p' (hp' | hp')
    · cases hp'
      exact ⟨hwanted n, fun q n' hq => (Place.sub_inj hq).1 ▸ hin⟩
    · exact ⟨h.adding_want p' (.inr hp'), fun q n' hq => h.adding_up q n' (hq ▸ .inr hp')⟩
  · intro p' d' unread' hx
    rcases List.mem_cons.1 hx with heq | hx
    · cases heq
      exact ⟨hin, hwanted⟩
    · exact h.reading_in p' d' unread' (hreading ▸ List.mem_cons_of_mem _ hx)
  · intro q w i n' k hq hw hlink _ hheld
    rcases hheld with hx | hx | hx | ⟨unread', hx, hn'⟩
    · exact .inl (.inl hx)
    · exact .inl (.inr (.inl (hkeep _ hx)))
    · rw [hwork] at hx
      cases hx
    · rw [hreading] at hx
      rcases List.mem_cons.1 hx with heq | hx
      · cases heq
        -- the name that was read is added now; the others stay unread
        by_cases hn : n' = n
        · subst hn
          exact .inl (.inr (.inl (.inl rfl)))
        · exact .inl (.inr (.inr (.inr ⟨_, List.mem_cons_self, (List.mem_erase_of_ne hn).2 hn'⟩)))
      · exact .inl (.inr (.inr (.inr ⟨unread', List.mem_cons_of_mem _ hx, hn'⟩)))

omit [DecidableEq N] in
/-- A directory without further names. -/
theorem Good.close (h : m.Good wanted) (hwork : m.work = .idle) {d : Inode}
    {rest : List (Place R N × Inode × List N)} (hreading : m.reading = (p, d, []) :: rest) :
    (m.turn .idle m.starts rest).Good wanted := by
  have hsame : ∀ p', (m.turn .idle m.starts rest).Adding p' ↔ m.Adding p' := by
    intro p'
    unfold Adding
    rw [hwork]
    rfl
  refine h.turn (fun r _ hr => .inr ((hsame _).2 hr)) (fun p' hp' => ?_) (fun p' hp' => by cases hp') ?_ ?_
  · exact ⟨h.adding_want p' ((hsame p').1 hp'), fun q n hq => h.adding_up q n (hq ▸ (hsame p').1 hp')⟩
  · exact fun p' d' unread' hx => h.reading_in p' d' unread' (hreading ▸ List.mem_cons_of_mem _ hx)
  · intro q w i n k hq hw hlink _ hheld
    rcases hheld with hx | hx | hx | ⟨unread, hx, hn⟩
    · exact .inl (.inl hx)
    · exact .inl (.inr (.inl ((hsame _).2 hx)))
    · rw [hwork] at hx
      cases hx
    · rw [hreading] at hx
      rcases List.mem_cons.1 hx with heq | hx
      · cases heq
        cases hn
      · exact .inl (.inr (.inr (.inr ⟨unread, hx, hn⟩)))

omit [DecidableEq N] in
/-- The next root. -/
theorem Good.begin (h : m.Good wanted) (hwork : m.work = .idle) {rest : List (Place R N)}
    (hstarts : m.starts = p :: rest) : (m.turn (.adding p) rest m.reading).Good wanted := by
  have hsame : ∀ p', (m.turn (.adding p) rest m.reading).Adding p' ↔ m.Adding p' := by
    intro p'
    unfold Adding
    rw [hwork, hstarts, List.mem_cons]
    constructor
    · rintro (hp' | hp')
      · cases hp'
        exact .inr (.inl rfl)
      · exact .inr (.inr hp')
    · rintro (hp' | rfl | hp')
      · cases hp'
      · exact .inl rfl
      · exact .inr hp'
  refine h.turn (fun r _ hr => .inr ((hsame _).2 hr)) (fun p' hp' => ?_) (fun p' hp' => by cases hp') h.reading_in ?_
  · exact ⟨h.adding_want p' ((hsame p').1 hp'), fun q n hq => h.adding_up q n (hq ▸ (hsame p').1 hp')⟩
  · intro q w i n k hq hw hlink _ hheld
    rcases hheld with hx | hx | hx | hx
    · exact .inl (.inl hx)
    · exact .inl (.inr (.inl ((hsame _).2 hx)))
    · rw [hwork] at hx
      cases hx
    · exact .inl (.inr (.inr (.inr hx)))

end Turns

/-! ## A new entry -/

variable [DecidableEq N]

/-- `m'` is `m` with a watch and an entry for the directory `i` at `p`, which is opened next. -/
structure Entered (m m' : Mirror R N) (p : Place R N) (i : Inode) : Prop where
  working : m.work = .adding p
  absent : m.entry p = none
  found : m.tree.resolve p.1 p.2 = some i
  tree : m'.tree = m.tree
  notes : m'.notes = m.notes
  starts : m'.starts = m.starts
  reading : m'.reading = m.reading
  work : m'.work = .opening p
  next : m'.watches.next = m.watches.next + 1
  marks : ∀ x, x ∈ m'.watches.marks ↔ x = (i, m.watches.next) ∨ x ∈ m.watches.marks
  self : m'.entry p = some m.watches.next
  other : ∀ p', p' ≠ p → m'.entry p' = m.entry p'

namespace Entered

variable {m' : Mirror R N} (e : Entered m m' p i)

include e

theorem mono {p' : Place R N} (h : m.entry p' = some w) : m'.entry p' = some w := by
  rw [e.other, h]
  rintro rfl
  cases e.absent.symm.trans h

theorem kept {p' : Place R N} (h : m.entry p' ≠ none) : m'.entry p' ≠ none := by
  obtain ⟨w, hw⟩ := Option.ne_none_iff_exists'.1 h
  rw [e.mono hw]
  exact Option.some_ne_none w

theorem old {p' : Place R N} (h : m'.entry p' ≠ none) : p' = p ∨ m.entry p' ≠ none := by
  by_cases heq : p' = p
  · exact .inl heq
  · rw [e.other p' heq] at h
    exact .inr h

theorem cases (hg : m.Good wanted) {p' : Place R N} (h : m'.entry p' = some w) :
    (p' = p ∧ w = m.watches.next) ∨ (m.entry p' = some w ∧ w ≠ m.watches.next) := by
  by_cases heq : p' = p
  · rw [heq, e.self] at h
    exact .inl ⟨heq, (Option.some.inj h).symm⟩
  · rw [e.other p' heq] at h
    exact .inr ⟨h, Nat.ne_of_lt (hg.wd_used p' w h)⟩

theorem adding_self : m.Adding p := .inl e.working

theorem adding_or {p' : Place R N} (h : m.Adding p') : p' = p ∨ m'.Adding p' := by
  rcases h with h | h
  · rw [e.working] at h
    cases h
    exact .inl rfl
  · exact .inr (.inr (e.starts ▸ h))

theorem adding_of {p' : Place R N} (h : m'.Adding p') : m.Adding p' := by
  rcases h with h | h
  · rw [e.work] at h
    cases h
  · exact .inr (e.starts ▸ h)

theorem doomed {p' : Place R N} (h : m.Doomed p') : m'.Doomed p' :=
  h.mono (fun _ _ => e.mono) fun x hx => by rwa [e.notes]

theorem held {q : Place R N} {j : Inode} (h : m.Held q j n) : m'.Held q j n := by
  rcases h with hx | hx | hx | ⟨unread, hx, hn⟩
  · exact .inl (e.kept hx)
  · rcases e.adding_or hx with heq | hx
    · rw [Held, heq, e.self]
      exact .inl (Option.some_ne_none _)
    · exact .inr (.inl hx)
  · rw [e.working] at hx
    cases hx
  · exact .inr (.inr (.inr ⟨unread, e.reading ▸ hx, hn⟩))

theorem mark_of {j : Inode} (hw : (j, w) ∈ m'.watches.marks) (hne : w ≠ m.watches.next) : (j, w) ∈ m.watches.marks := by
  rcases (e.marks _).1 hw with heq | hw
  · cases heq
    exact absurd rfl hne
  · exact hw

/-- The new entry is below one that is alive or will go. -/
theorem linked (hg : m.Good wanted) {p' : Place R N} {w' : Wd} (hp' : m'.entry p' = some w')
    (hpn : m'.entry (p'.sub n) = some w) : m'.Linked w' n w ∨ m'.Doomed (p'.sub n) := by
  have hlinked : ∀ {j k}, (j, w') ∈ m'.watches.marks → ⟨j, n, k⟩ ∈ m.tree.links → (k, w) ∈ m'.watches.marks →
      m'.Linked w' n w := fun hj hlink hk => ⟨_, _, hj, e.tree ▸ hlink, hk⟩
  rcases e.cases hg hpn with ⟨heq, rfl⟩ | ⟨hpn, -⟩
  · rcases e.cases hg hp' with ⟨heq', -⟩ | ⟨hp', -⟩
    -- both would be the new place
    · exact absurd (heq.trans heq'.symm) Place.sub_ne_self
    · rcases hg.alive hp' with ⟨j, hj, hw⟩ | hd
      -- the new entry: its path resolves through the parent
      · have hres := e.found
        rw [← heq] at hres
        obtain ⟨j', hj', hlink⟩ := DirTree.resolve_concat_eq_some.1 hres
        obtain rfl := Option.some.inj (hj.symm.trans hj')
        exact .inl (hlinked ((e.marks _).2 (.inr hw)) hlink ((e.marks _).2 (.inl rfl)))
      · exact .inr (e.doomed (hd.sub n))
  · rcases e.cases hg hp' with ⟨rfl, -⟩ | ⟨hp', -⟩
    -- nothing is below the new entry yet
    · exact absurd e.absent (hg.up p' n (by rw [hpn]; exact Option.some_ne_none _))
    · rcases hg.linked p' n w w' hp' hpn with ⟨j, k, hj, hlink, hk⟩ | hd
      · exact .inl (hlinked ((e.marks _).2 (.inr hj)) hlink ((e.marks _).2 (.inr hk)))
      · exact .inr (e.doomed hd)

theorem listed (hg : m.Good wanted) {q : Place R N} {j k : Inode} (hq : m'.entry q = some w)
    (hw : (j, w) ∈ m'.watches.marks) (hlink : ⟨j, n, k⟩ ∈ m'.tree.links) (hwanted : wanted (q.sub n)) :
    m'.Arrived w n ∨ (⟨w, n, false⟩ ∉ m'.notes ∧ m'.Held q j n) ∨ m'.Doomed q := by
  rcases e.cases hg hq with ⟨rfl, rfl⟩ | ⟨hq, hne⟩
  · -- nothing is reported yet of the new watch
    refine .inr (.inl ⟨fun hmem => ?_, .inr (.inr (.inl e.work))⟩)
    rw [e.notes] at hmem
    exact absurd (hg.note_used _ hmem) (Nat.lt_irrefl _)
  · rcases hg.listed q w j n k hq (e.mark_of hw hne) (e.tree ▸ hlink) hwanted with ha | ⟨hnone, hheld⟩ | hd
    · exact .inl (ha.append (e.notes.trans (List.append_nil _).symm) (by simp))
    · exact .inr (.inl ⟨by rwa [e.notes], e.held hheld⟩)
    · exact .inr (.inr (e.doomed hd))

theorem good (hg : m.Good wanted) : m'.Good wanted where
  wd_inj p₁ p₂ w h₁ h₂ := by
    rcases e.cases hg h₁ with ⟨rfl, rfl⟩ | ⟨h₁, hw₁⟩ <;> rcases e.cases hg h₂ with ⟨rfl, hw₂⟩ | ⟨h₂, hw₂⟩
    · rfl
    · exact absurd rfl hw₂
    · exact absurd hw₂ hw₁
    · exact hg.wd_inj p₁ p₂ w h₁ h₂
  wd_used p' w hp' := by
    rw [e.next]
    rcases e.cases hg hp' with ⟨-, rfl⟩ | ⟨hp', -⟩
    · exact Nat.lt_succ_self _
    · exact Nat.lt_succ_of_lt (hg.wd_used p' w hp')
  note_used x hx := by
    rw [e.next]
    exact Nat.lt_succ_of_lt (hg.note_used x (e.notes ▸ hx))
  up p' n hp' := by
    rcases e.old hp' with heq | hp'
    · exact e.kept (hg.adding_up p' n (heq ▸ e.adding_self))
    · exact e.kept (hg.up p' n hp')
  want p' hp' := by
    rcases e.old hp' with rfl | hp'
    · exact hg.adding_want _ e.adding_self
    · exact hg.want p' hp'
  root_at r w hr := by
    rw [e.tree]
    rcases e.cases hg hr with ⟨heq, rfl⟩ | ⟨hr, -⟩
    · have hres := e.found
      rw [← heq, DirTree.resolve_nil] at hres
      exact ⟨i, hres, (e.marks _).2 (.inl rfl)⟩
    · obtain ⟨j, hj, hw⟩ := hg.root_at r w hr
      exact ⟨j, hj, (e.marks _).2 (.inr hw)⟩
  root_in r hr hroot := by
    rcases hg.root_in r hr (e.tree ▸ hroot) with hin | hin
    · exact .inl (e.kept hin)
    · rcases e.adding_or hin with heq | hin
      · rw [heq, e.self]
        exact .inl (Option.some_ne_none _)
      · exact .inr hin
  adding_want p' hp' := hg.adding_want p' (e.adding_of hp')
  adding_up p' n hp' := e.kept (hg.adding_up p' n (e.adding_of hp'))
  opening_in p' hp' := by
    rw [e.work] at hp'
    cases hp'
    rw [e.self]
    exact Option.some_ne_none _
  reading_in p' d unread hx := by
    obtain ⟨hin, hwanted⟩ := hg.reading_in p' d unread (e.reading ▸ hx)
    exact ⟨e.kept hin, hwanted⟩
  linked p' n w w' hp' hpn := e.linked hg hp' hpn
  listed q w j n k hq hw hlink hwanted := e.listed hg hq hw hlink hwanted

end Entered

/-- A directory that is not watched yet gets a watch and an entry. -/
theorem Good.watch [DecidableEq R] (h : m.Good wanted) (hwork : m.work = .adding p) (hp : m.entry p = none)
    (hres : m.tree.resolve p.1 p.2 = some i) (hfresh : m.watches.wdOf i = none) :
    ({ m with
      watches := m.watches.add i hfresh
      entry := Function.update m.entry p (some m.watches.next)
      work := .opening p } : Mirror R N).Good wanted := by
  refine Entered.good (m := m) (p := p) (i := i) ?_ h
  exact {
    working := hwork
    absent := hp
    found := hres
    tree := rfl
    notes := rfl
    starts := rfl
    reading := rfl
    work := rfl
    next := rfl
    marks := fun x => List.mem_cons
    self := Function.update_self ..
    other := fun p' hne => Function.update_of_ne hne .. }

end Lib.Mirror
