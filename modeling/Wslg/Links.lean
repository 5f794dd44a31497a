import Wslg.Follow
/-!
# The link of an update

An update that is accepted writes one shell link. Its arguments come from the
provider that is in `m_appProvider` when the message is handled.
-/

open Lib Lib.TraceM

namespace Wslg

open Client WSLDVCCallback

variable {W α : Type}

/-! ## The links in a trace -/

def linkOf : Event → Option ShellLink
  | .CreateShellLink link _ => some link
  | _ => none

def linksOf (l : List Event) : List ShellLink := l.filterMap linkOf

/-- From `s` to `t` these links are written, in this order. -/
def Links (ls : List ShellLink) (s t : Sys W) : Prop := ∃ ext, t.trace = s.trace ++ ext ∧ linksOf ext = ls

theorem Links.append {ls ls' : List ShellLink} {s t u : Sys W} (h : Links ls s t) (h' : Links ls' t u) :
    Links (ls ++ ls') s u := by
  obtain ⟨ext, ht, rfl⟩ := h
  obtain ⟨ext', hu, rfl⟩ := h'
  refine ⟨ext ++ ext', by rw [hu, ht, List.append_assoc], ?_⟩
  rw [linksOf, List.filterMap_append]
  rfl

/-- No link is written. -/
abbrev NoLink : Sys W → Sys W → Prop := Appends fun e => linkOf e = none

theorem links_nil_of_noLink {s t : Sys W} (h : NoLink s t) : Links [] s t := by
  obtain ⟨ext, ht, hext⟩ := h
  exact ⟨ext, ht, List.filterMap_eq_nil_iff.2 hext⟩

theorem Links.before {ls : List ShellLink} {s t u : Sys W} (h : NoLink s t) (h' : Links ls t u) : Links ls s u :=
  (links_nil_of_noLink h).append h'

theorem Links.after {ls : List ShellLink} {s t u : Sys W} (h : Links ls s t) (h' : NoLink t u) : Links ls s u := by
  have := h.append (links_nil_of_noLink h')
  rwa [List.append_nil] at this

/-! ## What writes them -/

theorem silent_noLink (os : OS W) : Silent os NoLink := silent_appends os _

theorem noLink_mark {e : Event} (h : Mark e) : Keeps NoLink (emit e : SysM W PUnit) := by
  refine appends_emit ?_
  cases e <;> first | rfl | exact h.elim

/-- The link is handed on as it is, except for an empty icon path. -/
theorem links_CreateShellLink (os : OS W) (link : ShellLink) (s : Sys W) :
    ∃ l : ShellLink, l.pathLink = link.pathLink ∧ l.args = link.args ∧ Links [l] s (CreateShellLink os link s).2 :=
  ⟨{ link with pathIcon := link.pathIcon.filter (· ≠ []) }, rfl, rfl, [.CreateShellLink _ _], rfl, rfl⟩

theorem links_createFiles (os : OS W) (v : UpdateLocals) (t : WSLDVCCallback) (s : Sys W) :
    ∃ l : ShellLink, l.pathLink = v.linkPath ∧ l.args = v.exeArgs ∧ Links [l] s (createFiles os v t s).2 := by
  have hicon : Keeps NoLink (createIcon os v) :=
    Keeps.ite (fun _ => appends_CreateIconFile os fun _ => rfl) fun _ => Keeps.pure _
  obtain ⟨l, hpath, hargs, hl⟩ := links_CreateShellLink os _ (createIcon os v s).2
  exact ⟨l, hpath, hargs, hl.before (hicon s)⟩

theorem noLink_OnSyncEnd (os : OS W) (cleanupFiles : Bool) (m : Machine W) :
    NoLink m.sys (OnSyncEnd os cleanupFiles m).sys :=
  (frame_OnSyncEnd (silent_noLink os) (fun _ => appends_DeleteFileW os fun _ => rfl)
    (fun _ => appends_RemoveDirectory os rfl) (fun _ he _ => noLink_mark he) cleanupFiles m).2

theorem links_finishUpdate (os : OS W) (v : UpdateLocals) (m : Machine W) :
    Outcome (finishUpdate os v) m (fun _ m' => ∃ l : ShellLink, l.pathLink = v.linkPath ∧ l.args = v.exeArgs ∧
      Links [l] m.sys m'.sys) fun _ _ => True := by
  obtain ⟨l, hpath, hargs, hl⟩ := links_createFiles os v m.this m.sys
  refine outcome_getThis_bind (outcome_sys_bind (outcome_sys_bind (Outcome.bind (Outcome.mono
    (Q := fun _ m' => Links [l] m.sys m'.sys) (E := fun _ _ => True) ?_ (fun _ m' hm => ?_) fun _ _ h => h))))
  · have hspared : ∀ u s, NoLink s (emit (.updated u) s : PUnit × Sys W).2 := fun u s => noLink_mark (e := .updated u) trivial s
    exact Outcome.ite (fun _ => Outcome.update_iff.2 (hl.after (hspared _ _)))
      fun _ => Outcome.pure_iff.2 (hl.after (hspared _ _))
  · refine Outcome.ite (fun _ => Outcome.update_iff.2 ⟨l, hpath, hargs, ?_⟩) fun _ => Outcome.pure_iff.2 ⟨l, hpath, hargs, hm⟩
    exact hm.after (noLink_OnSyncEnd os true m')

/-! ## Accepted updates -/

/-- What an accepted update was, and the link it wrote. -/
structure Accepted (os : OS W) (s t : Reading (Machine W)) (p : RDPAPPLIST_UPDATE_APPLIST_PDU) (link : ShellLink) :
    Prop where
  read : ∃ icon u, ReadUpdateMessage os s = .ok (p, icon) u
  fields : fieldsOk p = true
  args : link.args = exeArgsOf s.out.this.m_appProvider.str p
  links : Links [link] s.out.sys t.out.sys

theorem accepted_update {os : OS W} {s t : Reading (Machine W)} (h : OnUpdateAppList os s = .ok ⟨⟩ t) :
    ∃ p link, Accepted os s t p link := by
  have hrun : Ends (OnUpdateAppList os) s (fun _ t => ∃ p link, Accepted os s t p link) fun _ _ => True := by
    unfold OnUpdateAppList
    refine Ends.bind (Ends.self _ s) (fun msg u hmsg => ?_) fun _ _ _ => trivial
    obtain ⟨p, icon⟩ := msg
    have hread := (frame_ReadUpdateMessage (R := NoLink) (fun _ => appends_LocalAlloc os fun _ => rfl)
      (appends_emit rfl) s.out).of_ok rfl hmsg
    have hgate := frame_syncGate (m := u.out) (silent_noLink os) (fun _ => appends_RemoveDirectory os rfl)
      (fun _ _ => appends_emit rfl) (appends_emit rfl) p.flags
    -- behind the reader: the gate, the paths, the registration, and then the link
    have hlater : Outcome (prepareUpdate os p icon >>= fun v => registerApp v >>= fun _ => finishUpdate os v) u.out
        (fun _ m' => ∃ link : ShellLink, fieldsOk p = true ∧ link.args = exeArgsOf u.out.this.m_appProvider.str p ∧
          Links [link] u.out.sys m'.sys) fun _ _ => True := by
      rw [prepareUpdate_eq, bind_assoc]
      refine Outcome.bind (hgate.mono (fun _ m₁ h₁ => ?_) fun _ _ _ => trivial)
      refine Outcome.bind ((outcome_preparePaths (R := NoLink) p icon fun _ _ _ =>
        appends_CreateDirectoryW os rfl).mono (fun v m₂ h₂ => ?_) fun _ _ _ => trivial)
      have hreg : Outcome (registerApp v) m₂ (fun _ m₃ => NoLink m₂.sys m₃.sys) fun _ _ => True :=
        (frame_registerApp (R := NoLink) v m₂).mono (fun _ _ => And.right) fun _ _ _ => trivial
      refine Outcome.bind (hreg.mono (fun _ m₃ h₃ => ?_) fun _ _ _ => trivial)
      refine (links_finishUpdate os v m₃).mono (fun _ m₄ h₄ => ?_) fun _ _ _ => trivial
      obtain ⟨link, -, hargs, hl⟩ := h₄
      obtain ⟨hv, hsame⟩ := h₂
      have hprovider : m₁.this.m_appProvider = u.out.this.m_appProvider := h₁.1.map (·.m_appProvider) fun _ => rfl
      refine ⟨link, hv.fields, ?_, ((hl.before h₃).before hsame.2).before h₁.2⟩
      rw [hargs, hv.exeArgs, hprovider]
    refine (hlater u rfl).mono (fun _ t ht => ?_) fun _ _ _ => trivial
    obtain ⟨link, hfields, hargs, hl⟩ := ht
    refine ⟨p, link, ⟨icon, u, hmsg⟩, hfields, ?_, hl.before hread.2⟩
    rw [hargs, hread.1]
  exact hrun.ok h

end Wslg
