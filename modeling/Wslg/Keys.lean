import Wslg.Follow
/-!
# Keys and apps

The three handlers that name an app build its key in the same way, from the
group and the id with a backslash between. Both may have backslashes of their
own, so the key does not always say where the one ends and the other begins.
-/

open Lib

namespace Wslg

open Client

variable {W : Type}

/-! ## The key -/

/-- The group of an app, if it is in one. -/
def groupOf (group : StringField) : Option WString := if group.length ≠ 0 then some group.str else none

theorem keyOf_eq (group id : StringField) : keyOf group id = joined 92 (groupOf group) id.str := by
  unfold keyOf groupOf
  split
  · simp [joined, L]
  · rfl

/-- A key is built if it fits, and changes nothing. -/
theorem buildKey_run (group id : StringField) (s : Reading (Machine W)) : buildKey group id s =
    if (keyOf group id).length < MAX_PATH then .ok (keyOf group id) s else .error (.reject (.hr .E_FAIL)) s := by
  have hcat : ∀ dst src : WString, (okOr (wcscat_s MAX_PATH dst src) : Handler W WString) s =
      if (dst ++ src).length < MAX_PATH then .ok (dst ++ src) s else .error (.reject (.hr .E_FAIL)) s := by
    intro dst src
    rw [wcscat_s, List.length_append]
    split <;> rfl
  have hgroup : (groupKey group : Handler W WString) s =
      if (keyOf group StringField.empty).length < MAX_PATH then .ok (keyOf group StringField.empty) s
      else .error (.reject (.hr .E_FAIL)) s := by
    have hempty : StringField.empty.str = [] := by decide
    unfold groupKey keyOf
    rw [hempty, List.append_nil]
    -- without a group nothing is copied, and nothing can fail
    by_cases hg : group.length ≠ 0
    · rw [if_pos hg, if_pos hg, run_bind, hcat, List.nil_append]
      by_cases hfits : group.str.length < MAX_PATH
      · rw [if_pos hfits]
        exact hcat _ _
      · rw [if_neg hfits, if_neg]
        rw [List.length_append]
        omega
    · rw [if_neg hg, if_neg hg]
      rfl
  have hkey : keyOf group id = keyOf group StringField.empty ++ id.str := by
    have hempty : StringField.empty.str = [] := by decide
    rw [keyOf, keyOf, hempty, List.append_nil]
  rw [buildKey, run_bind, hgroup, hkey]
  -- if the group alone does not fit, the whole key does not either
  by_cases hfits : (keyOf group StringField.empty).length < MAX_PATH
  · rw [if_pos hfits]
    exact hcat _ _
  · rw [if_neg hfits, if_neg]
    rw [List.length_append]
    omega

/-! ## Apps -/

/-- The keys of two apps are the same only if the apps are. -/
def KeysIdentify (group id group' id' : StringField) : Prop :=
  keyOf group id = keyOf group' id' ↔ groupOf group = groupOf group' ∧ id.str = id'.str

/-- All handlers build the same key. Keys identify apps exactly if neither app is the
other with the start of its id, up to a backslash, moved to its group. -/
theorem keys_identify_apps (group id group' id' : StringField) :
    (∀ s : Reading (Machine W), buildKey group id s = (if (keyOf group id).length < MAX_PATH then .ok (keyOf group id) s
        else .error (.reject (.hr .E_FAIL)) s) ∧ buildLookupKey group id s = buildKey group id s) ∧
      (KeysIdentify group id group' id' ↔
        ¬ (Resplits 92 (groupOf group) id.str (groupOf group') id'.str ∨
          Resplits 92 (groupOf group') id'.str (groupOf group) id.str)) := by
  refine ⟨fun s => ⟨buildKey_run group id s, by rw [buildLookupKey_eq]⟩, ?_⟩
  rw [KeysIdentify, keyOf_eq, keyOf_eq]
  exact joined_identifies_iff

/-- Ids without a backslash are told apart. -/
theorem keysIdentify_of_no_backslash {group id group' id' : StringField} (h : (92 : WCHAR) ∉ id.str)
    (h' : (92 : WCHAR) ∉ id'.str) : KeysIdentify group id group' id' := by
  have hno : ∀ {g : Option WString} {n : WString} {g' : Option WString} {n' : WString}, (92 : WCHAR) ∉ n →
      ¬ Resplits 92 g n g' n' := by
    intro g n g' n' hn hr
    cases g with
    | none =>
      obtain ⟨x, -, rfl⟩ := hr
      simp at hn
    | some y =>
      obtain ⟨x, -, rfl⟩ := hr
      simp at hn
  rw [KeysIdentify, keyOf_eq, keyOf_eq]
  exact joined_identifies_iff.2 (not_or.2 ⟨hno h, hno h'⟩)

/-! ### Two apps with one key -/

/-- A field that holds a string. -/
def fieldOf (s : WString) : StringField := StringField.empty.put (utf16 s)

/-- An update of an app in a group. -/
def groupedUpdate (group id : WString) : RDPAPPLIST_UPDATE_APPLIST_PDU where
  flags := RDPAPPLIST_FIELD_ID ||| RDPAPPLIST_FIELD_GROUP
  appId := fieldOf id
  appGroup := fieldOf group
  appExecPath := .empty
  appWorkingDir := .empty
  appDesc := .empty

/-- The app `b\c` of the group `a` and the app `c` of the group `a\b`. -/
theorem two_apps_one_key : fieldsOk (groupedUpdate (L "a") (L "b\\c")) = true ∧
    fieldsOk (groupedUpdate (L "a\\b") (L "c")) = true ∧
    keyOf (groupedUpdate (L "a") (L "b\\c")).appGroup (groupedUpdate (L "a") (L "b\\c")).appId = L "a\\b\\c" ∧
    keyOf (groupedUpdate (L "a\\b") (L "c")).appGroup (groupedUpdate (L "a\\b") (L "c")).appId = L "a\\b\\c" ∧
    ¬ KeysIdentify (groupedUpdate (L "a") (L "b\\c")).appGroup (groupedUpdate (L "a") (L "b\\c")).appId
      (groupedUpdate (L "a\\b") (L "c")).appGroup (groupedUpdate (L "a\\b") (L "c")).appId := by
  have hkey : keyOf (groupedUpdate (L "a") (L "b\\c")).appGroup (groupedUpdate (L "a") (L "b\\c")).appId =
      L "a\\b\\c" := by decide +kernel
  have hkey' : keyOf (groupedUpdate (L "a\\b") (L "c")).appGroup (groupedUpdate (L "a\\b") (L "c")).appId =
      L "a\\b\\c" := by decide +kernel
  refine ⟨by decide +kernel, by decide +kernel, hkey, hkey', fun h => ?_⟩
  have hid := (h.1 (hkey.trans hkey'.symm)).2
  revert hid
  decide +kernel

end Wslg
