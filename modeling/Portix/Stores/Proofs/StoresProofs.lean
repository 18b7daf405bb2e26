import Portix.Lib.Proofs.JsonProofs
import Portix.Lib.Proofs.UpdateProofs
import Portix.Stores.SettingsRepository
import Portix.Stores.SessionSnapshotStore

/-!
# Settings and snapshots that overlapping calls write

Both stores are files that are read, changed under one key and written again. What was written is read
back; updates are lost where a call writes what it has read too early.
-/

namespace Portix.Stores

open Lib Lib.Update

theorem SettingWrite.get_apply (write : SettingWrite) (settings : Settings) :
    (write.apply settings).get = Function.update settings.get write.key write.value := by
  have hset : ∀ key value, (settings.set key value).get = Function.update settings.get key (some value) := by
    intro key value
    funext k
    rw [Function.update_apply]
    exact lookup_putEntry key _ settings.entries k
  cases write with
  | terminalSetting key value =>
    cases value with
    | none =>
      funext k
      rw [Function.update_apply]
      exact lookup_entries_filter key settings.entries k
    | some value => exact hset key value
  | terminalSnippets snippets => exact hset _ _
  | terminalTheme name => exact hset _ _

theorem entries_foldl_set (entries : List (String × String)) : ∀ settings : Settings,
    ((settings.entries ++ entries).map Prod.fst).Nodup →
    ((entries.map fun entry => (entry.1, Json.string entry.2)).foldl
      (fun settings entry => match entry.2.toText? with
        | some text => settings.set entry.1 text
        | none => settings) settings).entries = settings.entries ++ entries := by
  induction entries with
  | nil =>
    intro settings _
    rw [List.append_nil]
    rfl
  | cons entry rest ih =>
    intro settings hnodup
    have hnew : entry.1 ∉ settings.entries.map Prod.fst := by
      rw [List.map_append, List.map_cons, List.nodup_append] at hnodup
      intro hmem
      exact hnodup.2.2 entry.1 hmem entry.1 (List.mem_cons_self ..) rfl
    have hset : (settings.set entry.1 entry.2).entries = settings.entries ++ [entry] :=
      putEntry_of_notMem hnew
    have hrest := ih (settings.set entry.1 entry.2) (by
      rw [hset, List.append_assoc]
      exact hnodup)
    rw [hset, List.append_assoc] at hrest
    exact hrest

theorem ofEntries_entries (settings : Settings) :
    Settings.ofEntries (settings.entries.map fun entry => (entry.1, .string entry.2)) = settings := by
  have hentries := entries_foldl_set settings.entries .empty settings.distinct
  cases settings with
  | mk entries distinct =>
    unfold Settings.ofEntries
    rw [Settings.mk.injEq]
    exact hentries

theorem plainEntries_texts (entries : List (String × String)) :
    Json.plainEntries (entries.map fun entry => (entry.1, Json.string entry.2)) = true := by
  induction entries with
  | nil => rfl
  | cons entry rest ih => simpa [Json.plainEntries, Json.plain] using ih

theorem dartTrim_ne_empty {text : String} {c : Char} {rest : List Char} (htext : text.toList = c :: rest)
    (hc : isDartWhitespace c = false) : dartTrim text ≠ "" := by
  intro hblank
  obtain ⟨ds, htrim⟩ := toList_trimBy_cons htext hc
  have hempty : (trimBy isDartWhitespace text).toList = [] := by
    show (dartTrim text).toList = []
    rw [hblank]
    rfl
  rw [hempty] at htrim
  cases htrim

theorem loadSettings_settingsBytes (readDouble : String → String) (settings : Settings) :
    loadSettings readDouble (some (settingsBytes settings)) = some settings := by
  have hplain : (Json.map (settings.entries.map fun entry => (entry.1, .string entry.2))).plain = true := by
    rw [Json.plain, plainEntries_texts, Bool.true_and, decide_eq_true_iff, List.map_map]
    exact settings.distinct
  obtain ⟨rest, htext⟩ : ∃ rest, (settingsText settings).toList = '\x7b' :: rest := by
    unfold settingsText Json.encode
    rw [String.toList_ofList]
    cases settings.entries with
    | nil => exact ⟨_, rfl⟩
    | cons entry rest => exact ⟨_, rfl⟩
  unfold loadSettings settingsBytes
  simp only [ofUtf8_utf8, Option.bind_some]
  rw [if_neg (dartTrim_ne_empty htext (by decide))]
  unfold settingsText
  rw [Json.decode_encode readDouble Json.indented hplain]
  simp only [ofEntries_entries]

section Snapshots

variable {τ : Type} {dates : DateTimes τ}

theorem underId_cons (snapshot : SessionSnapshot τ) (snapshots : List (SessionSnapshot τ)) (id : String) :
    underId dates (snapshot :: snapshots) id =
      if snapshot.id = id then snapshot.toJson dates ::ₘ underId dates snapshots id
      else underId dates snapshots id := by
  unfold underId
  by_cases hid : snapshot.id = id
  · rw [if_pos hid, List.filter_cons_of_pos (by simpa using hid), List.map_cons]
    rfl
  · rw [if_neg hid, List.filter_cons_of_neg (by simpa using hid)]

theorem underId_filter (snapshots : List (SessionSnapshot τ)) (id id' : String) :
    underId dates (snapshots.filter fun snapshot => snapshot.id ≠ id) id' =
      if id' = id then 0 else underId dates snapshots id' := by
  unfold underId
  rw [List.filter_filter]
  by_cases hid : id' = id
  · rw [if_pos hid, hid]
    have hnone : (snapshots.filter fun snapshot =>
        decide (snapshot.id = id) && decide (snapshot.id ≠ id)) = [] := by
      rw [List.filter_eq_nil_iff]
      intro snapshot _
      simp
    rw [hnone]
    rfl
  · rw [if_neg hid]
    have hsame : (snapshots.filter fun snapshot =>
        decide (snapshot.id = id') && decide (snapshot.id ≠ id)) =
          snapshots.filter fun snapshot => decide (snapshot.id = id') := by
      apply List.filter_congr
      intro snapshot _
      by_cases hown : snapshot.id = id'
      · simp [hown, hid]
      · simp [hown]
    rw [hsame]

theorem SnapshotWrite.underId_apply (write : SnapshotWrite τ) (snapshots : List (SessionSnapshot τ)) :
    underId dates (write.apply snapshots) =
      Function.update (underId dates snapshots) write.key (write.value dates) := by
  funext id
  rw [Function.update_apply]
  cases write with
  | save snapshot =>
    show underId dates (snapshot :: snapshots.filter fun s => s.id ≠ snapshot.id) id =
      if id = snapshot.id then {snapshot.toJson dates} else _
    rw [underId_cons, underId_filter]
    by_cases hid : id = snapshot.id
    · rw [if_pos hid, if_pos hid, if_pos hid.symm]
      rfl
    · rw [if_neg hid, if_neg hid, if_neg (Ne.symm hid)]
  | delete id' => exact underId_filter snapshots id' id

theorem SessionSnapshot.exists_fromJson (dates : DateTimes τ) (snapshot : SessionSnapshot τ) :
    ∃ snapshot', fromJson dates (snapshot.toJson dates) = some snapshot' ∧
      snapshot'.id = snapshot.id ∧ snapshot'.toJson dates = snapshot.toJson dates := by
  obtain ⟨time, hparse, hprint⟩ := dates.reparse snapshot.savedAt
  refine ⟨{ snapshot with savedAt := time }, ?_, rfl, ?_⟩
  · simp [fromJson, toJson, text, Json.get, List.lookup_cons, Json.asString?, hparse]
  · simp [toJson, hprint]

theorem exists_mapM_fromJson (dates : DateTimes τ) (snapshots : List (SessionSnapshot τ)) :
    ∃ snapshots', (snapshots.map fun snapshot => Json.map (snapshot.toJson dates)).mapM
        (fun item : Json => item.asMap?.bind (SessionSnapshot.fromJson dates)) = some snapshots' ∧
      ∀ id, underId dates snapshots' id = underId dates snapshots id := by
  induction snapshots with
  | nil => exact ⟨[], rfl, fun _ => rfl⟩
  | cons snapshot rest ih =>
    obtain ⟨snapshot', hread, hid, hsame⟩ := snapshot.exists_fromJson dates
    obtain ⟨rest', hrest, hunder⟩ := ih
    refine ⟨snapshot' :: rest', ?_, ?_⟩
    · have hfirst : (Json.map (snapshot.toJson dates)).asMap?.bind (SessionSnapshot.fromJson dates) =
          some snapshot' := hread
      rw [List.map_cons, List.mapM_cons, hfirst, hrest]
      rfl
    · intro id
      rw [underId_cons, underId_cons, hid, hsame, hunder]

theorem underId_perm {snapshots snapshots' : List (SessionSnapshot τ)}
    (hperm : snapshots.Perm snapshots') : underId dates snapshots = underId dates snapshots' := by
  funext id
  exact Multiset.coe_eq_coe.mpr ((hperm.filter _).map _)

theorem loadSnapshots_snapshotsBytes (readDouble : String → String)
    {newestFirst : List (SessionSnapshot τ) → List (SessionSnapshot τ)}
    (hperm : ∀ snapshots, (newestFirst snapshots).Perm snapshots)
    (snapshots : List (SessionSnapshot τ)) :
    ∃ snapshots', loadSnapshots dates readDouble newestFirst (some (snapshotsBytes dates snapshots)) =
      some snapshots' ∧ underId dates snapshots' = underId dates snapshots := by
  have hplain : (Json.list (snapshots.map fun snapshot => .map (snapshot.toJson dates))).plain =
      true := by
    rw [Json.plain]
    induction snapshots with
    | nil => rfl
    | cons snapshot rest ih => simpa [Json.plainItems, Json.plain, Json.plainEntries,
        SessionSnapshot.toJson] using ih
  obtain ⟨rest, htext⟩ : ∃ rest, (snapshotsText dates snapshots).toList = '[' :: rest := by
    unfold snapshotsText Json.encode
    rw [String.toList_ofList]
    cases snapshots with
    | nil => exact ⟨_, rfl⟩
    | cons snapshot rest => exact ⟨_, rfl⟩
  obtain ⟨snapshots', hread, hunder⟩ := exists_mapM_fromJson dates snapshots
  refine ⟨newestFirst snapshots', ?_, ?_⟩
  · unfold loadSnapshots snapshotsBytes
    simp only [ofUtf8_utf8, Option.bind_some]
    rw [if_neg (dartTrim_ne_empty htext (by decide))]
    unfold snapshotsText
    rw [Json.decode_encode readDouble Json.compact hplain]
    simp only [hread, Option.map_some]
  · rw [underId_perm (hperm snapshots')]
    funext id
    exact hunder id

end Snapshots

/-- No update of the settings or of the snapshots is lost in an orderly run: once all calls are over the
file says under each key, or id, what the last call for it wrote, and the rest is as it was. -/
theorem updates_not_lost {τ : Type} (readDouble : String → String) (dates : DateTimes τ)
    (newestFirst : List (SessionSnapshot τ) → List (SessionSnapshot τ))
    (hperm : ∀ snapshots, (newestFirst snapshots).Perm snapshots) (file : Option (List UInt8)) :
    (∀ h s, Reaches (Store.step (loadSettings readDouble) settingsBytes SettingWrite.apply)
      (fun s => s.Orderly (loadSettings readDouble) Settings.get SettingWrite.key)
      (Store.start file) h s → s.Settled →
      Kept SettingWrite.key SettingWrite.value (loadSettings readDouble) Settings.get file h s) ∧
    ∀ h s, Reaches (Store.step (loadSnapshots dates readDouble newestFirst) (snapshotsBytes dates)
        SnapshotWrite.apply)
      (fun s => s.Orderly (loadSnapshots dates readDouble newestFirst) (underId dates)
        SnapshotWrite.key)
      (Store.start file) h s → s.Settled →
      Kept SnapshotWrite.key (SnapshotWrite.value dates) (loadSnapshots dates readDouble newestFirst)
        (underId dates) file h s := by
  constructor
  · intro h s hreach hsettled
    apply settled_of_reaches SettingWrite.get_apply ?_ hreach hsettled
    intro settings
    exact ⟨settings, loadSettings_settingsBytes readDouble settings, rfl⟩
  · intro h s hreach hsettled
    apply settled_of_reaches SnapshotWrite.underId_apply ?_ hreach hsettled
    intro snapshots
    exact loadSnapshots_snapshotsBytes readDouble hperm snapshots

def textTimes : DateTimes String := ⟨id, some, fun time => ⟨time, rfl, rfl⟩⟩

/-- Two settings and two snapshots are written by calls that overlap. -/
theorem updates_not_lost_interleaved :
    (∃ s, Kept SettingWrite.key SettingWrite.value (loadSettings id) Settings.get none
      [.wrote (.terminalTheme "dark"), .wrote (.terminalSetting "general.terminal_font_scale" (some "15")),
        .completed (.terminalSetting "general.terminal_font_scale" (some "15")), .completed (.terminalTheme "dark")]
      s) ∧
    ∃ s, Kept SnapshotWrite.key (SnapshotWrite.value textTimes) (loadSnapshots textTimes id id)
      (underId textTimes) none
      [.wrote (.save ⟨"1", "p", "t", "2024", "$ ls"⟩), .wrote (.save ⟨"2", "p", "t", "2025", "$ pwd"⟩),
        .completed (.save ⟨"2", "p", "t", "2025", "$ pwd"⟩), .completed (.save ⟨"1", "p", "t", "2024", "$ ls"⟩)]
      s := by
  have hperm : ∀ snapshots : List (SessionSnapshot String), (id snapshots).Perm snapshots :=
    fun snapshots => .refl snapshots
  obtain ⟨hsettings, hsnapshots⟩ := updates_not_lost id textTimes id hperm none
  have hnone : loadSettings id none = some .empty := rfl
  have hnoSnapshots : loadSnapshots textTimes id id none = some [] := rfl
  constructor
  · obtain ⟨s, hreach, hsettled⟩ := reaches_interleaved (loadSettings id) settingsBytes SettingWrite.apply
      Settings.get SettingWrite.key (.terminalTheme "dark")
      (.terminalSetting "general.terminal_font_scale" (some "15")) hnone (loadSettings_settingsBytes id _) (by decide)
    exact ⟨s, hsettings _ s hreach hsettled⟩
  · obtain ⟨now, hload, -⟩ := @loadSnapshots_snapshotsBytes _ textTimes id id hperm
      (SnapshotWrite.apply (.save ⟨"1", "p", "t", "2024", "$ ls"⟩) [])
    obtain ⟨s, hreach, hsettled⟩ := reaches_interleaved (loadSnapshots textTimes id id)
      (snapshotsBytes textTimes) SnapshotWrite.apply (underId textTimes) SnapshotWrite.key
      (.save ⟨"1", "p", "t", "2024", "$ ls"⟩) (.save ⟨"2", "p", "t", "2025", "$ pwd"⟩) hnoSnapshots hload (by decide)
    exact ⟨s, hsnapshots _ s hreach hsettled⟩

/-- A font size and a theme are set at once: the font size is lost. -/
theorem update_lost : ∃ (file : Option (List UInt8)) (h : List (Obs SettingWrite))
    (s : Store Settings SettingWrite),
    Reaches (Store.step (loadSettings id) settingsBytes SettingWrite.apply) (fun _ _ => True)
      (Store.start file) h s ∧ s.Settled ∧
    ¬Kept SettingWrite.key SettingWrite.value (loadSettings id) Settings.get file h s := by
  have hnone : loadSettings id none = some .empty := rfl
  obtain ⟨h, s, hreach, hsettled, hcompleted, hfile⟩ := reaches_overlap (loadSettings id)
    settingsBytes SettingWrite.apply
    (.terminalSetting "general.terminal_font_scale" (some "15")) (.terminalTheme "dark") hnone
  refine ⟨none, h, s, hreach, hsettled, ?_⟩
  rintro ⟨hkept, -⟩
  rw [hcompleted, hfile, loadSettings_settingsBytes] at hkept
  have hlost := congrFun (Option.some.inj hkept) "general.terminal_font_scale"
  revert hlost
  decide

end Portix.Stores
