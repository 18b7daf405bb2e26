import Portix.Terminal.Proofs.PanelSteps

/-!
# Each connect works on its own session

Most of what the panel does leaves alone which calls there are and what they have added (`Goes`). The
session that a call looks for is new, and the last of its profile, so it is its own (`own_of_search`).
-/

namespace Portix.Terminal

open Lib

open Connection (ConnectionManager TerminalSession Hop Connections ConnectionEvent ConnectionObs)

/-- The call waits for its `connect`, or has not gone on yet. -/
def PanelCall.Searching (call : PanelCall) : Prop :=
  (∃ c, call.phase = .connecting c) ∨ ∃ success, call.phase = .connected success

def PanelTask.replacements : PanelTask → List (String × String)
  | .reconnectWorkspace w => w.replacements
  | _ => []

namespace PanelCall

variable {call : PanelCall} {o : List ConnectionObs}

theorem hear_task : (call.hear o).task = call.task := by
  unfold hear
  split
  · split
    · rfl
    · rfl
  · rfl

theorem hear_added : (call.hear o).added = call.added := by
  unfold hear
  split
  · split
    · rfl
    · rfl
  · rfl

theorem searching_of_hear (hsearching : (call.hear o).Searching) : call.Searching := by
  unfold hear at hsearching
  split at hsearching
  · rename_i c hphase
    exact .inl ⟨c, hphase⟩
  · exact hsearching

end PanelCall

namespace TerminalPanel

variable {s s' : TerminalPanel} {h o : List PanelObs} {event : PanelEvent} {k : Nat} {call : PanelCall}
  {id : String}

/-- No session is added for a call, and no call begins to wait for one. -/
structure Goes (s s' : TerminalPanel) : Prop where
  used : s.connections.used ⊆ s'.connections.used
  entries {entry : String × String} : entry ∈ s'.manager.entries → entry ∈ s.manager.entries ∨
    entry.1 ∉ s.connections.used ∧ entry.1 ∈ s'.connections.used
  calls {j : Nat} {call' : PanelCall} : s'.calls[j]? = some call' →
    (∃ call, s.calls[j]? = some call ∧ call'.added = call.added ∧ call'.task = call.task ∧
      (call'.Searching → call.Searching)) ∨ (call'.added = none ∧ call'.task.replacements = [])

namespace Goes

theorem of_eq (hconnections : s'.connections = s.connections) (hcalls : s'.calls = s.calls) : Goes s s' where
  used := by
    rw [hconnections]
    exact List.Subset.refl _
  entries hmem := by
    unfold manager at hmem ⊢
    rw [hconnections] at hmem
    exact .inl hmem
  calls hat := by
    rw [hcalls] at hat
    exact .inl ⟨_, hat, rfl, rfl, id⟩

theorem refl (s : TerminalPanel) : Goes s s := of_eq rfl rfl

theorem withPanel (s : TerminalPanel) (panel : TerminalPanelState) : Goes s (s.withPanel panel) :=
  of_eq rfl rfl

theorem trans {s'' : TerminalPanel} (hfirst : Goes s s') (hsecond : Goes s' s'') : Goes s s'' where
  used := List.Subset.trans hfirst.used hsecond.used
  entries hmem := by
    rcases hsecond.entries hmem with hbefore | ⟨hfresh, hused⟩
    · rcases hfirst.entries hbefore with hold | ⟨hfresh, hused⟩
      · exact .inl hold
      · exact .inr ⟨hfresh, hsecond.used hused⟩
    · exact .inr ⟨fun hold => hfresh (hfirst.used hold), hused⟩
  calls hat := by
    rcases hsecond.calls hat with ⟨call', hat', hadded, htask, hsearching⟩ | hnew
    · rcases hfirst.calls hat' with ⟨call, hold, hadded', htask', hsearching'⟩ | ⟨hnone, hempty⟩
      · exact .inl ⟨call, hold, hadded.trans hadded', htask.trans htask', fun hnow => hsearching' (hsearching hnow)⟩
      · exact .inr ⟨hadded.trans hnone, htask ▸ hempty⟩
    · exact .inr hnew

theorem afterManager {r : Connections × List ConnectionObs} {notified : Bool}
    (hchange : Connections.ListChange s.connections r.1 notified) (notify : Bool) :
    Goes s (s.afterManager r notify) where
  used := hchange.used
  entries hmem := hchange.entries hmem
  calls {j call'} hat := by
    have hmap : (s.calls.map (PanelCall.hear r.2))[j]? = some call' := hat
    rw [List.getElem?_map, Option.map_eq_some_iff] at hmap
    obtain ⟨call, hold, rfl⟩ := hmap
    exact .inl ⟨call, hold, PanelCall.hear_added, PanelCall.hear_task, PanelCall.searching_of_hear⟩

theorem closeSession (s : TerminalPanel) (id : String) : Goes s (s.closeSession id) :=
  .afterManager (Connections.listChange_closeSession id) _

theorem renameSession (s : TerminalPanel) (id title : String) : Goes s (s.renameSession id title) :=
  .afterManager (Connections.listChange_withManager (b := false)
    (ConnectionManager.entries_renameSession title)) _

theorem startRecording (s : TerminalPanel) (id path : String) : Goes s (s.startRecording id path) :=
  .afterManager (Connections.listChange_withManager (b := false)
    (ConnectionManager.entries_startRecording path)) _

theorem keepRecording (s : TerminalPanel) (id : String) (path : Option String) : Goes s (s.keepRecording id path) := by
  cases path with
  | none => exact .refl s
  | some path => exact .startRecording s id path

theorem restoreSnapshot (s : TerminalPanel) (id : String) (restore : Option SessionSnapshot) :
    Goes s (s.restoreSnapshot id restore) := by
  cases restore with
  | none => exact .refl s
  | some snapshot => exact .renameSession s id snapshot.title

theorem setPhase {phase : CallPhase} (hat : s.calls[k]? = some call)
    (hconnecting : ∀ c, phase ≠ .connecting c) (hconnected : ∀ success, phase ≠ .connected success) :
    Goes s (s.setCall k { call with phase := phase }) where
  used := List.Subset.refl _
  entries hmem := .inl hmem
  calls hat' := by
    rcases (getElem?_set_eq_some hat).mp hat' with ⟨rfl, rfl⟩ | ⟨_, hold⟩
    · refine .inl ⟨call, hat, rfl, rfl, ?_⟩
      rintro (⟨c, hphase⟩ | ⟨success, hphase⟩)
      · exact absurd hphase (hconnecting c)
      · exact absurd hphase (hconnected success)
    · exact .inl ⟨_, hold, rfl, rfl, id⟩

theorem newCall (s : TerminalPanel) (task : PanelTask) (hempty : task.replacements = [])
    (phase : CallPhase) : Goes s (s.newCall task phase) where
  used := List.Subset.refl _
  entries hmem := .inl hmem
  calls hat := by
    rcases getElem?_concat_eq_some.mp hat with hold | ⟨_, rfl⟩
    · exact .inl ⟨_, hold, rfl, rfl, id⟩
    · exact .inr ⟨rfl, hempty⟩

theorem toggleBroadcastTyping (s : TerminalPanel) : Goes s s.toggleBroadcastTyping := of_eq rfl rfl

end Goes

/-- A new session was added for a call, and the call waits for its `connect`. -/
structure Connects (s s' : TerminalPanel) (k : Nat) (task : PanelTask) (id profileId : String) : Prop where
  used : s'.connections.used = s.connections.used ++ [id]
  entries : s'.manager.entries = s.manager.entries ++ [(id, profileId)]
  calls {j : Nat} {call' : PanelCall} : s'.calls[j]? = some call' →
    (j = k ∧ call'.task = task ∧ call'.added = some id) ∨
      ∃ old, s.calls[j]? = some old ∧ call'.added = old.added ∧ call'.task = old.task ∧
        (call'.Searching → old.Searching)

variable {profile : Hop} {profileId : String}

theorem connects_connectFor {id' : String} (task : PanelTask)
    (hat : s.calls[k]? = some call) (hadded : addedSession profile id = some id') :
    id' = id ∧ Connects s (s.connectFor k task profile id).1 k task id profile.id := by
  unfold addedSession at hadded
  split at hadded
  · cases hadded
  · rename_i hfilled
    cases hadded
    refine ⟨rfl, ?_, ?_, ?_⟩
    · show (s.connections.connect id profile).1.used = _
      unfold Connections.connect
      rw [if_neg hfilled]
    · show (s.connections.connect id profile).1.manager.entries = _
      unfold Connections.connect
      rw [if_neg hfilled]
      exact ConnectionManager.entries_addSession profile
    · intro j call' hat'
      have hmap : ((s.calls.set k ⟨task, .connecting s.connections.calls.length,
          addedSession profile id⟩).map (PanelCall.hear (s.connections.connect id profile).2))[j]? = some call' := hat'
      rw [List.getElem?_map, Option.map_eq_some_iff] at hmap
      obtain ⟨before, hbefore, rfl⟩ := hmap
      rcases (getElem?_set_eq_some hat).mp hbefore with ⟨rfl, rfl⟩ | ⟨_, hold⟩
      · exact .inl ⟨rfl, PanelCall.hear_task, PanelCall.hear_added.trans (if_neg hfilled)⟩
      · exact .inr ⟨before, hold, PanelCall.hear_added, PanelCall.hear_task, PanelCall.searching_of_hear⟩

/-- What a call has added is its own, and new to it. -/
structure Owned (h : List PanelObs) (s : TerminalPanel) : Prop where
  listed {entry : String × String} : entry ∈ s.manager.entries → entry.1 ∈ s.connections.used
  added {k : Nat} {id : String} : .added k id ∈ h → id ∈ s.connections.used
  once {k k' : Nat} {id : String} : .added k id ∈ h → .added k' id ∈ h → k = k'
  call {k : Nat} {call : PanelCall} {id : String} : s.calls[k]? = some call → call.added = some id →
    .added k id ∈ h
  search {k : Nat} {call : PanelCall} {id profileId : String} {success : Bool} {existing : List String} :
    s.calls[k]? = some call → call.added = some id → call.Searching →
    call.task.search success = some (profileId, existing) →
    id ∉ existing ∧ ∀ profileId', (id, profileId') ∈ s.manager.entries → profileId' = profileId
  replaced {k : Nat} {call : PanelCall} {entry : String × String} : s.calls[k]? = some call →
    entry ∈ call.task.replacements → .added k entry.2 ∈ h
  uses {k : Nat} {use : Use} {id : String} : .used k use id ∈ h → .added k id ∈ h

namespace Owned

theorem observe (hinv : Owned h s) (hadded : ∀ k id, PanelObs.added k id ∉ o)
    (huses : ∀ k use id, .used k use id ∈ o → .added k id ∈ h) : Owned (h ++ o) s := by
  have hback : ∀ {k id}, .added k id ∈ h ++ o → .added k id ∈ h := by
    intro k id hmem
    rcases List.mem_append.mp hmem with hold | hnew
    · exact hold
    · exact absurd hnew (hadded k id)
  refine ⟨hinv.listed, fun hmem => hinv.added (hback hmem),
    fun hmem hmem' => hinv.once (hback hmem) (hback hmem'), ?_, hinv.search, ?_, ?_⟩
  · intro k call id hat hown
    exact List.mem_append_left _ (hinv.call hat hown)
  · intro k call entry hat hmem
    exact List.mem_append_left _ (hinv.replaced hat hmem)
  · intro k use id hmem
    rcases List.mem_append.mp hmem with hold | hnew
    · exact List.mem_append_left _ (hinv.uses hold)
    · exact List.mem_append_left _ (huses k use id hnew)

theorem goes (hinv : Owned h s) (hgoes : Goes s s') : Owned h s' where
  listed hmem := by
    rcases hgoes.entries hmem with hold | ⟨-, hused⟩
    · exact hgoes.used (hinv.listed hold)
    · exact hused
  added hmem := hgoes.used (hinv.added hmem)
  once := hinv.once
  call hat hown := by
    rcases hgoes.calls hat with ⟨call, hold, hsame, -, -⟩ | ⟨hnone, -⟩
    · exact hinv.call hold (hsame.symm.trans hown)
    · cases hnone.symm.trans hown
  search {k call' id profileId success existing} hat hown hsearching hsearch := by
    rcases hgoes.calls hat with ⟨call, hold, hsame, htask, hbefore⟩ | ⟨hnone, -⟩
    · have hown' := hsame.symm.trans hown
      rw [htask] at hsearch
      obtain ⟨hnew, hprofile⟩ := hinv.search hold hown' (hbefore hsearching) hsearch
      refine ⟨hnew, ?_⟩
      intro profileId' hmem
      rcases hgoes.entries hmem with hentry | ⟨hfresh, -⟩
      · exact hprofile profileId' hentry
      · exact absurd (hinv.added (hinv.call hold hown')) hfresh
    · cases hnone.symm.trans hown
  replaced hat hmem := by
    rcases hgoes.calls hat with ⟨call, hold, -, htask, -⟩ | ⟨-, hempty⟩
    · rw [htask] at hmem
      exact hinv.replaced hold hmem
    · rw [hempty] at hmem
      cases hmem
  uses := hinv.uses

theorem setCall (hinv : Owned h s) (call' : PanelCall) (hat : s.calls[k]? = some call)
    (hnone : call'.added = none) (hreplaced : ∀ entry ∈ call'.task.replacements, .added k entry.2 ∈ h) :
    Owned h (s.setCall k call') where
  listed := hinv.listed
  added := hinv.added
  once := hinv.once
  call hat' hown := by
    rcases (getElem?_set_eq_some hat).mp hat' with ⟨rfl, rfl⟩ | ⟨_, hold⟩
    · cases hnone.symm.trans hown
    · exact hinv.call hold hown
  search hat' hown hsearching hsearch := by
    rcases (getElem?_set_eq_some hat).mp hat' with ⟨rfl, rfl⟩ | ⟨_, hold⟩
    · cases hnone.symm.trans hown
    · exact hinv.search hold hown hsearching hsearch
  replaced hat' hmem := by
    rcases (getElem?_set_eq_some hat).mp hat' with ⟨rfl, rfl⟩ | ⟨_, hold⟩
    · exact hreplaced _ hmem
    · exact hinv.replaced hold hmem
  uses := hinv.uses

variable {task : PanelTask}

theorem connects (hinv : Owned h s) (hconnects : Connects s s' k task id profileId) (hfresh : id ∉ s.connections.used)
    (hsearch : ∀ success profileId' existing, task.search success = some (profileId', existing) →
      profileId' = profileId ∧ ∀ other ∈ existing, other ∈ s.connections.used)
    (hreplaced : ∀ entry ∈ task.replacements, .added k entry.2 ∈ h) :
    Owned (h ++ [.added k id]) s' where
  listed {entry} hmem := by
    rw [hconnects.entries, List.mem_append, List.mem_singleton] at hmem
    rw [hconnects.used]
    rcases hmem with hold | rfl
    · exact List.mem_append_left _ (hinv.listed hold)
    · exact List.mem_append_right _ List.mem_cons_self
  added hmem := by
    rw [hconnects.used]
    rcases List.mem_append.mp hmem with hold | hnew
    · exact List.mem_append_left _ (hinv.added hold)
    · cases List.mem_singleton.mp hnew
      exact List.mem_append_right _ List.mem_cons_self
  once hmem hmem' := by
    rcases List.mem_append.mp hmem with hold | hnew
    · rcases List.mem_append.mp hmem' with hold' | hnew'
      · exact hinv.once hold hold'
      · cases List.mem_singleton.mp hnew'
        exact absurd (hinv.added hold) hfresh
    · cases List.mem_singleton.mp hnew
      rcases List.mem_append.mp hmem' with hold' | hnew'
      · exact absurd (hinv.added hold') hfresh
      · cases List.mem_singleton.mp hnew'
        rfl
  call hat' hown := by
    rcases hconnects.calls hat' with ⟨rfl, -, hadded⟩ | ⟨old, hold, hadded, -, -⟩
    · cases hadded.symm.trans hown
      exact List.mem_append_right _ List.mem_cons_self
    · exact List.mem_append_left _ (hinv.call hold (hadded.symm.trans hown))
  search {j call' id' profileId' success existing} hat' hown hsearching hsearch' := by
    rcases hconnects.calls hat' with ⟨rfl, htask, hadded⟩ | ⟨old, hold, hadded, htask, hbefore⟩
    · cases hadded.symm.trans hown
      rw [htask] at hsearch'
      obtain ⟨rfl, hexisting⟩ := hsearch success profileId' existing hsearch'
      refine ⟨fun hmem => hfresh (hexisting _ hmem), ?_⟩
      intro other hmem
      rw [hconnects.entries, List.mem_append, List.mem_singleton] at hmem
      rcases hmem with hentry | heq
      · exact absurd (hinv.listed hentry) hfresh
      · exact congrArg Prod.snd heq
    · have hown' := hadded.symm.trans hown
      rw [htask] at hsearch'
      obtain ⟨hnew, hprofile⟩ := hinv.search hold hown' (hbefore hsearching) hsearch'
      refine ⟨hnew, ?_⟩
      intro other hmem
      rw [hconnects.entries, List.mem_append, List.mem_singleton] at hmem
      rcases hmem with hentry | heq
      · exact hprofile other hentry
      · obtain rfl : id' = id := congrArg Prod.fst heq
        exact absurd (hinv.added (hinv.call hold hown')) hfresh
  replaced {j call' entry} hat' hmem := by
    rcases hconnects.calls hat' with ⟨rfl, htask, -⟩ | ⟨old, hold, -, htask, -⟩
    · rw [htask] at hmem
      exact List.mem_append_left _ (hreplaced entry hmem)
    · rw [htask] at hmem
      exact List.mem_append_left _ (hinv.replaced hold hmem)
  uses hmem := by
    rcases List.mem_append.mp hmem with hold | hnew
    · exact List.mem_append_left _ (hinv.uses hold)
    · cases List.mem_singleton.mp hnew

theorem connectFor (hinv : Owned h s) (hat : s.calls[k]? = some call) (hfresh : id ∉ s.connections.used)
    (hsearch : ∀ success profileId existing, task.search success = some (profileId, existing) →
      profileId = profile.id ∧ ∀ other ∈ existing, other ∈ s.connections.used)
    (hreplaced : task.replacements = call.task.replacements) :
    Owned (h ++ (s.connectFor k task profile id).2) (s.connectFor k task profile id).1 := by
  have hkept : ∀ entry ∈ task.replacements, .added k entry.2 ∈ h := by
    intro entry hmem
    rw [hreplaced] at hmem
    exact hinv.replaced hat hmem
  cases hadded : addedSession profile id with
  | none =>
    have hset := hinv.setCall ⟨task, .connecting s.connections.calls.length, none⟩ hat rfl hkept
    have hchange := Connections.listChange_connect profile hfresh
    have hgoes := hset.goes (.afterManager (s := s.setCall k ⟨task, _, none⟩) hchange
      (s.connections.notifies (.connect id profile)))
    unfold TerminalPanel.connectFor
    rw [hadded, Option.map_none, Option.toList_none, List.append_nil]
    exact hgoes
  | some id' =>
    obtain ⟨rfl, hconnects⟩ := connects_connectFor task hat hadded
    have hobs : (s.connectFor k task profile id').2 = [.added k id'] := by
      show ((addedSession profile id').map (PanelObs.added k)).toList = _
      rw [hadded]
      rfl
    rw [hobs]
    exact hinv.connects hconnects hfresh hsearch hkept

theorem ids_used (hinv : Owned h s) : ∀ id ∈ s.manager.ids, id ∈ s.connections.used := by
  intro id hmem
  rw [ConnectionManager.ids_eq_entries, List.mem_map] at hmem
  obtain ⟨entry, hentry, rfl⟩ := hmem
  exact hinv.listed hentry

theorem own_of_search {success : Bool} {existing : List String}
    {session : TerminalSession} (hinv : Owned h s) (hunmixed : Unmixed s (.finish k))
    (hat : s.calls[k]? = some call) (hphase : call.phase = .connected success)
    (hsearch : call.task.search success = some (profileId, existing))
    (hfound : newSessionForProfile s.manager profileId existing = some session) :
    .added k session.id ∈ h := by
  rcases hunmixed call success profileId existing hat hphase hsearch with
    hnone | ⟨before, own, after, hsplit, hown, hlater⟩
  · have hmem := List.mem_of_getLast? hfound
    rw [List.mem_filter, decide_eq_true_iff] at hmem
    obtain ⟨hlisted, hprofile, hnew⟩ := hmem
    exact absurd (hnone session hlisted hprofile) hnew
  · have hlisted : own ∈ s.manager.sessions := by
      rw [hsplit]
      exact List.mem_append_right _ List.mem_cons_self
    obtain ⟨hnew, hprofile⟩ := hinv.search hat hown.symm (.inr ⟨success, hphase⟩) hsearch
    have hentry : (own.id, own.profileId) ∈ s.manager.entries :=
      List.mem_map_of_mem (f := fun session : TerminalSession => (session.id, session.profileId)) hlisted
    have hafter : (after.filter fun session =>
        decide (session.profileId = profileId ∧ session.id ∉ existing)) = [] := by
      apply List.filter_eq_nil_iff.mpr
      intro later hmem hsame
      exact hlater later hmem (of_decide_eq_true hsame).1
    have hpasses : own.profileId = profileId ∧ own.id ∉ existing := ⟨hprofile own.profileId hentry, hnew⟩
    have hlast : newSessionForProfile s.manager profileId existing = some own := by
      unfold newSessionForProfile
      rw [hsplit, List.filter_append, List.filter_cons, if_pos (decide_eq_true hpasses), hafter]
      exact List.getLast?_concat
    cases hlast.symm.trans hfound
    exact hinv.call hat hown.symm

theorem connectNewSession (hinv : Owned h s) (restore : Option SessionSnapshot)
    (startDirectory : Option String) (hfresh : id ∉ s.connections.used) :
    Owned (h ++ (s.connectNewSession profile restore startDirectory id).2)
      (s.connectNewSession profile restore startDirectory id).1 := by
  have hcall := (hinv.goes (.withPanel s (s.panel.startConnecting profile.id))).goes
    (.newCall _ (.connectNew profile s.manager.ids restore startDirectory) rfl .over)
  refine hcall.connectFor (getElem?_concat_eq_some.mpr (.inr ⟨rfl, rfl⟩)) hfresh ?_ rfl
  rintro success profileId existing ⟨⟩
  exact ⟨rfl, hinv.ids_used⟩

theorem connectPassword {index : Option Nat} {failed : Option String} (hinv : Owned h s)
    (hat : s.calls[k]? = some call) (hempty : call.task.replacements = [])
    (hfresh : id ∉ s.connections.used) :
    Owned (h ++ (s.connectPassword k profile index failed id).2)
      (s.connectPassword k profile index failed id).1 := by
  refine hinv.connectFor hat hfresh ?_ hempty.symm
  rintro success profileId existing ⟨⟩
  exact ⟨rfl, hinv.ids_used⟩

theorem closing (hinv : Owned h s) (hempty : task.replacements = []) (id : String) :
    Owned h ((s.newCall task .closing).closeSession id) :=
  (hinv.goes (.newCall s task hempty .closing)).goes (.closeSession _ id)

end Owned

theorem newSessionForProfile_nil {m : ConnectionManager} :
    newSessionForProfile m profileId [] = lastSessionForProfile m profileId := by
  unfold newSessionForProfile lastSessionForProfile
  congr 1
  apply List.filter_congr
  intro session _
  simp

theorem Owned.setOver (hinv : Owned h s) (hat : s.calls[k]? = some call) :
    Owned h (s.setCall k { call with phase := .over }) :=
  hinv.goes (.setPhase hat (fun _ hphase => by cases hphase) (fun _ hphase => by cases hphase))

theorem Owned.of_pair {r : TerminalPanel × List PanelObs} (hinv : Owned (h ++ r.2) r.1)
    (hr : some r = some (s', o)) : Owned (h ++ o) s' := by
  cases hr
  exact hinv

theorem Owned.sessionClosed (hinv : Owned h s) (hat : s.calls[k]? = some call)
    (hfresh : id ∉ s.connections.used) (hclosed : s.sessionClosed k id call.task = some (s', o)) :
    Owned (h ++ o) s' := by
  unfold TerminalPanel.sessionClosed at hclosed
  split at hclosed
  · rename_i sessionId before wasActive htask
    cases hclosed
    rw [List.append_nil]
    have hleft := hinv.goes (.withPanel s (s.panel.tabClosed before sessionId wasActive))
    exact hleft.setCall ⟨.closeTab sessionId before wasActive, .over, none⟩ hat rfl
      (fun _ hmem => absurd hmem List.not_mem_nil)
  · rename_i workspaceId sessionIds current rest htask
    have hleft := hinv.goes (.withPanel s { s.panel with sessionOrder := s.panel.sessionOrder.remove current })
    split at hclosed
    · rename_i next rest
      cases hclosed
      rw [List.append_nil]
      have hset := hleft.setCall ⟨.closeWorkspace workspaceId sessionIds next rest, .closing, none⟩ hat rfl
        (fun _ hmem => absurd hmem List.not_mem_nil)
      exact hset.goes (.closeSession _ next)
    · cases hclosed
      rw [List.append_nil]
      have hclosed := hleft.goes (.withPanel _ (({ s.panel with
        sessionOrder := s.panel.sessionOrder.remove current } : TerminalPanelState).workspaceClosed s.manager
          workspaceId sessionIds))
      exact hclosed.setCall ⟨.closeWorkspace workspaceId sessionIds current [], .over, none⟩ hat rfl
        (fun _ hmem => absurd hmem List.not_mem_nil)
  · rename_i profile index failed existing htask
    split at hclosed
    · cases hclosed
    · rename_i failedId
      have hempty : call.task.replacements = [] := by rw [htask]; rfl
      have hleft := hinv.goes (.withPanel s (s.panel.leaveTab s.manager failedId))
      exact .of_pair (hleft.connectPassword hat hempty hfresh) hclosed
  · rename_i session profile index recordingPath htask
    have hleft := hinv.goes (.withPanel s (s.panel.leaveTab s.manager session.id))
    have hempty : (PanelTask.reconnect session profile index recordingPath).replacements =
      call.task.replacements := by rw [htask]
    refine .of_pair (hleft.connectFor hat hfresh ?_ hempty) hclosed
    intro success profileId existing hsearch
    cases success with
    | false => cases hsearch
    | true =>
      cases hsearch
      exact ⟨rfl, fun _ hmem => absurd hmem List.not_mem_nil⟩
  · rename_i w htask
    have hsame : (PanelTask.reconnectWorkspace w).replacements = call.task.replacements := by rw [htask]
    refine .of_pair (hinv.connectFor hat hfresh ?_ hsame) hclosed
    intro success profileId existing hsearch
    cases success with
    | false => cases hsearch
    | true =>
      cases hsearch
      exact ⟨rfl, fun _ hmem => absurd hmem List.not_mem_nil⟩
  · cases hclosed
  · cases hclosed

/-- Observations of a session that a call uses. -/
def Uses (k : Nat) (id : String) (o : List PanelObs) : Prop := ∀ x ∈ o, ∃ use, x = .used k use id

theorem Owned.observeUses (hinv : Owned h s) (hown : .added k id ∈ h) (huses : Uses k id o) : Owned (h ++ o) s := by
  apply hinv.observe
  · intro j id' hmem
    obtain ⟨use, ⟨⟩⟩ := huses _ hmem
  · intro j use id' hmem
    obtain ⟨use', ⟨⟩⟩ := huses _ hmem
    exact hown

theorem Uses.append {o' : List PanelObs} (huses : Uses k id o) (huses' : Uses k id o') : Uses k id (o ++ o') := by
  intro x hmem
  rcases List.mem_append.mp hmem with hleft | hright
  · exact huses x hleft
  · exact huses' x hright

theorem Uses.singleton (use : Use) : Uses k id [.used k use id] := by
  intro x hmem
  exact ⟨use, List.mem_singleton.mp hmem⟩

theorem Uses.cons (use : Use) (huses : Uses k id o) : Uses k id (.used k use id :: o) := by
  have hone : Uses k id [.used k use id] := .singleton use
  exact hone.append huses

theorem Uses.map (use : String → Use) (text : Option String) :
    Uses k id (text.map fun text => .used k (use text) id).toList := by
  cases text with
  | none => exact fun x hmem => absurd hmem List.not_mem_nil
  | some text => exact .singleton (use text)

theorem Uses.restore (restore : Option SessionSnapshot) : Uses k id (restoreObs k restore id) := by
  cases restore with
  | none => exact fun x hmem => absurd hmem List.not_mem_nil
  | some snapshot => exact .cons _ (.singleton _)

theorem hear_nil : PanelCall.hear [] call = call := by
  unfold PanelCall.hear
  split
  · rfl
  · rfl

theorem calls_withManager {m : ConnectionManager} {notified : Bool} :
    (s.afterManager (s.connections.withManager (m, [])) notified).calls = s.calls := by
  show s.calls.map (PanelCall.hear []) = s.calls
  rw [show PanelCall.hear [] = id from funext fun _ => hear_nil, List.map_id]

theorem calls_restoreSnapshot (restore : Option SessionSnapshot) : (s.restoreSnapshot id restore).calls = s.calls := by
  cases restore with
  | none => rfl
  | some snapshot => exact calls_withManager

theorem calls_keepRecording (path : Option String) : (s.keepRecording id path).calls = s.calls := by
  cases path with
  | none => rfl
  | some path => exact calls_withManager

theorem Owned.opened {phase : CallPhase} (hinv : Owned h s) (hgoes : Goes s s')
    (hcalls : s'.calls = s.calls) (hat : s.calls[k]? = some call) (hown : .added k id ∈ h)
    (huses : Uses k id o) (hconnecting : ∀ c, phase ≠ .connecting c)
    (hconnected : ∀ success, phase ≠ .connected success) (panel : TerminalPanelState) :
    Owned (h ++ o) ((s'.withPanel panel).setCall k { call with phase := phase }) := by
  have hat' : (s'.withPanel panel).calls[k]? = some call := by
    show s'.calls[k]? = some call
    rw [hcalls]
    exact hat
  have hpanel := (hinv.goes hgoes).goes (.withPanel s' panel)
  exact (hpanel.goes (.setPhase hat' hconnecting hconnected)).observeUses hown huses

variable {session : TerminalSession}

theorem Owned.openNew (hinv : Owned h s) (hat : s.calls[k]? = some call)
    (hown : .added k session.id ∈ h) (restore : Option SessionSnapshot) (startDirectory : Option String) :
    Owned (h ++ (s.openNew k call session restore startDirectory).2)
      (s.openNew k call session restore startDirectory).1 := by
  have hwrite : Uses k session.id [.used k (.write clearText) session.id] := .singleton _
  have hcd : Uses k session.id (cdObs k startDirectory session.id) :=
    .map (fun path => .cd s!" cd {shellQuotePath path}\r") startDirectory
  have huses := ((hwrite.append (.restore restore)).append hcd).append (.singleton .place)
  exact hinv.opened (.restoreSnapshot s session.id restore) (calls_restoreSnapshot restore) hat hown huses
    (fun _ hphase => by cases hphase) (fun _ hphase => by cases hphase) _

theorem Owned.openDuplicate (hinv : Owned h s) (hat : s.calls[k]? = some call)
    (hown : .added k session.id ∈ h) (sessionId : String) :
    Owned (h ++ (s.openDuplicate k call session sessionId).2)
      (s.openDuplicate k call session sessionId).1 := by
  have hwrite : Uses k session.id [.used k (.write clearText) session.id] := .singleton _
  have hcd : Uses k session.id (cdObs k (s.panel.sessionDirectories sessionId) session.id) :=
    .map (fun path => .cd s!" cd {shellQuotePath path}\r") _
  have huses := (hwrite.append hcd).append (.singleton .place)
  exact hinv.opened (.refl s) rfl hat hown huses (fun _ hphase => by cases hphase)
    (fun _ hphase => by cases hphase) _

theorem Owned.openWithPassword (hinv : Owned h s)
    (hat : s.calls[k]? = some call) (hown : .added k session.id ∈ h) (index : Option Nat) :
    Owned (h ++ (s.openWithPassword k call session index).2)
      (s.openWithPassword k call session index).1 := by
  have huses : Uses k session.id [.used k (.write clearText) session.id, .used k .place session.id] :=
    .cons _ (.singleton _)
  exact hinv.opened (.refl s) rfl hat hown huses (fun _ hphase => by cases hphase)
    (fun _ hphase => by cases hphase) _

theorem Owned.newSessionFailed {failed : Option TerminalSession} (hinv : Owned h s)
    (hat : s.calls[k]? = some call) (hown : ∀ session, failed = some session → .added k session.id ∈ h) :
    Owned (h ++ (s.newSessionFailed k call failed).2) (s.newSessionFailed k call failed).1 := by
  cases failed with
  | none =>
    have hleft := hinv.goes (.withPanel s (s.panel.connectFailed none))
    have hover := hleft.setOver hat
    rw [← List.append_nil h] at hover
    exact hover
  | some session =>
    exact hinv.opened (.refl s) rfl hat (hown session rfl) (.singleton .place)
      (fun _ hphase => by cases hphase) (fun _ hphase => by cases hphase) _

theorem Owned.reopen {session old : TerminalSession} (hinv : Owned h s) (hat : s.calls[k]? = some call)
    (hown : .added k session.id ∈ h) (index : Option Nat) (recordingPath : Option String) :
    Owned (h ++ (s.reopen k call session old index recordingPath).2)
      (s.reopen k call session old index recordingPath).1 := by
  have hwrite : Uses k session.id [.used k (.write clearText) session.id, .used k (.rename old.title) session.id] :=
    .cons _ (.singleton _)
  have hend : Uses k session.id [.used k .place session.id, .used k (.substitute old.id) session.id] :=
    .cons _ (.singleton _)
  have huses := (hwrite.append (.map .record recordingPath)).append hend
  have hkept : Goes s ((s.renameSession session.id old.title).keepRecording session.id recordingPath) :=
    (Goes.renameSession s session.id old.title).trans (.keepRecording _ session.id recordingPath)
  have hcalls : ((s.renameSession session.id old.title).keepRecording session.id recordingPath).calls =
      s.calls := (calls_keepRecording recordingPath).trans calls_withManager
  have hopened := hinv.opened hkept hcalls hat hown huses
    (fun _ (hphase : CallPhase.over = _) => by cases hphase) (fun _ hphase => by cases hphase)
    (((s.renameSession session.id old.title).keepRecording session.id recordingPath).panel.reconnected old.id
      session index)
  exact hopened.goes (.of_eq rfl rfl)

theorem Goes.applyReplacements (s : TerminalPanel) (w : WorkspaceReconnect) : Goes s (s.applyReplacements w) := by
  unfold TerminalPanel.applyReplacements
  split
  · exact .refl s
  · exact .of_eq rfl rfl

variable {w : WorkspaceReconnect}

theorem calls_applyReplacements : (s.applyReplacements w).calls = s.calls := by
  unfold TerminalPanel.applyReplacements
  split
  · rfl
  · rfl

theorem Owned.nextReconnect (hinv : Owned h s) (hat : s.calls[k]? = some call)
    (hown : ∀ entry ∈ w.replacements, .added k entry.2 ∈ h) (todo : List (String × Hop)) :
    Owned (h ++ (s.nextReconnect k w todo).2) (s.nextReconnect k w todo).1 := by
  cases todo with
  | cons next rest =>
    have hset := hinv.setCall ⟨.reconnectWorkspace { w with current := next, rest := rest }, .closing, none⟩
      hat rfl hown
    have hclosing := hset.goes (.closeSession _ next.1)
    rw [← List.append_nil h] at hclosing
    exact hclosing
  | nil =>
    have hpanel := (hinv.goes (.applyReplacements s w)).goes
      (.withPanel _ ((s.applyReplacements w).panel.endReconnect (s.applyReplacements w).manager))
    have hat' : (s.applyReplacements w).calls[k]? = some call := by
      rw [calls_applyReplacements]
      exact hat
    have hset := hpanel.setCall ⟨.reconnectWorkspace w, .over, none⟩ hat' rfl hown
    apply hset.observe
    · intro j id hmem
      obtain ⟨entry, -, ⟨⟩⟩ := List.mem_map.mp hmem
    · intro j use id hmem
      obtain ⟨entry, hentry, ⟨⟩⟩ := List.mem_map.mp hmem
      exact hown entry hentry

theorem Owned.workspaceReconnectDone {success : Bool} (hinv : Owned h s)
    (hat : s.calls[k]? = some call) (htask : call.task = .reconnectWorkspace w)
    (hown : ∀ session, success = true → lastSessionForProfile s.manager w.current.2.id = some session →
      .added k session.id ∈ h) :
    Owned (h ++ (s.workspaceReconnectDone k call w success).2)
      (s.workspaceReconnectDone k call w success).1 := by
  have hreplaced : ∀ entry ∈ w.replacements, .added k entry.2 ∈ h := by
    intro entry hmem
    apply hinv.replaced hat
    rw [htask]
    exact hmem
  unfold TerminalPanel.workspaceReconnectDone
  split
  · rename_i hsuccess
    split
    · have hended := (hinv.goes (.withPanel s (s.panel.endReconnect s.manager))).setOver hat
      rw [← List.append_nil h] at hended
      exact hended
    · rename_i new hlast
      have hnew := hown new hsuccess hlast
      have huses : Uses k new.id
          [.used k (.write clearText) new.id, .used k (.write (reconnectedText w.current.2)) new.id] :=
        .cons _ (.singleton _)
      have hwritten := hinv.observeUses hnew huses
      have hnext := hwritten.nextReconnect (w := ⟨w.workspaceId, w.oldRoot, w.oldActiveId, w.current, w.rest,
        (w.current.1, new.id) :: w.replacements⟩) hat ?_ w.rest
      · rw [List.append_assoc] at hnext
        exact hnext
      · intro entry hmem
        apply List.mem_append_left
        rcases List.mem_cons.mp hmem with rfl | hold
        · exact hnew
        · exact hreplaced entry hold
  · exact hinv.nextReconnect hat hreplaced w.rest

theorem Owned.reconnectDone {index : Option Nat}
    {recordingPath : Option String} {success : Bool} (hinv : Owned h s) (hat : s.calls[k]? = some call)
    (hown : ∀ new, success = true → lastSessionForProfile s.manager profile.id = some new → .added k new.id ∈ h) :
    Owned (h ++ (s.reconnectDone k call session profile index recordingPath success).2)
      (s.reconnectDone k call session profile index recordingPath success).1 := by
  unfold TerminalPanel.reconnectDone
  split
  · rename_i hsuccess
    split
    · have hover := hinv.setOver hat
      rw [← List.append_nil h] at hover
      exact hover
    · rename_i new hlast
      exact hinv.reopen hat (hown new hsuccess hlast) index recordingPath
  · have hended := (hinv.goes (.withPanel s (s.panel.endReconnect s.manager))).setOver hat
    rw [← List.append_nil h] at hended
    exact hended

theorem Owned.finish {success : Bool} (hinv : Owned h s) (hunmixed : Unmixed s (.finish k))
    (hat : s.calls[k]? = some call) (hphase : call.phase = .connected success)
    (hfinish : s.finish k call success = some (s', o)) : Owned (h ++ o) s' := by
  have hown : ∀ profileId existing session, call.task.search success = some (profileId, existing) →
      newSessionForProfile s.manager profileId existing = some session → .added k session.id ∈ h :=
    fun _ _ _ hsearch hfound => hinv.own_of_search hunmixed hat hphase hsearch hfound
  have hlast : ∀ profileId session, call.task.search success = some (profileId, []) →
      lastSessionForProfile s.manager profileId = some session → .added k session.id ∈ h := by
    intro profileId session hsearch hlast
    apply hown profileId [] session hsearch
    rw [newSessionForProfile_nil]
    exact hlast
  unfold TerminalPanel.finish at hfinish
  split at hfinish
  · rename_i profile existing restore startDirectory htask
    have hsearch : call.task.search success = some (profile.id, existing) := by rw [htask]; rfl
    split at hfinish
    · rename_i session hfound
      refine .of_pair (hinv.openNew hat (hown _ _ session hsearch ?_) restore startDirectory) hfinish
      split at hfound
      · exact hfound
      · cases hfound
    · exact .of_pair (hinv.newSessionFailed hat fun session => hown _ _ session hsearch) hfinish
  · rename_i sessionId profile existing htask
    split at hfinish
    · rename_i session hfound
      split at hfound
      · rename_i hsuccess
        have hsearch : call.task.search success = some (profile.id, existing) := by
          rw [htask, hsuccess]
          rfl
        exact .of_pair (hinv.openDuplicate hat (hown _ _ session hsearch hfound) sessionId) hfinish
      · cases hfound
    · cases hfinish
      rw [List.append_nil]
      exact hinv.setOver hat
  · rename_i profile index failed existing htask
    have hsearch : call.task.search success = some (profile.id, existing) := by rw [htask]; rfl
    split at hfinish
    · rename_i session hfound
      refine .of_pair (hinv.openWithPassword hat (hown _ _ session hsearch ?_) index) hfinish
      split at hfound
      · exact hfound
      · cases hfound
    · exact .of_pair (hinv.newSessionFailed hat fun session => hown _ _ session hsearch) hfinish
  · rename_i session profile index recordingPath htask
    refine .of_pair (hinv.reconnectDone hat ?_) hfinish
    intro new hsuccess
    apply hlast
    rw [htask, hsuccess]
    rfl
  · rename_i w htask
    refine .of_pair (hinv.workspaceReconnectDone hat htask ?_) hfinish
    intro new hsuccess
    apply hlast
    rw [htask, hsuccess]
    rfl
  · cases hfinish
  · cases hfinish

theorem Owned.quiet (hinv : Owned h s) (hgoes : Goes s s') : Owned (h ++ []) s' := by
  rw [List.append_nil]
  exact hinv.goes hgoes

theorem Owned.step (hinv : Owned h s) (hunmixed : Unmixed s event) (htaken : Taken s event s' o) :
    Owned (h ++ o) s' := by
  cases htaken with
  | nothing => exact hinv.quiet (.refl s)
  | activateSession | focusPane | activateWorkspace | splitPane | moveSessionTab | removeSplit
  | ungroupActiveWorkspace | toggleSoloPane | resizeSplitBranch | build | directoryChanged
  | didUpdateWidget =>
    exact hinv.quiet (.withPanel s _)
  | toggleBroadcastTyping => exact hinv.quiet (.toggleBroadcastTyping s)
  | profilesChanged => exact hinv.quiet (.of_eq rfl rfl)
  | typed =>
    apply hinv.observe
    · intro k id hmem
      obtain ⟨target, -, ⟨⟩⟩ := List.mem_map.mp hmem
    · intro k use id hmem
      obtain ⟨target, -, ⟨⟩⟩ := List.mem_map.mp hmem
  | openNewSession hfresh | openSnapshot hfresh =>
    exact (hinv.goes (.withPanel s _)).connectNewSession _ _ hfresh
  | connectNewSession hevent hfresh => exact hinv.connectNewSession none none hfresh
  | @duplicateSession sessionId id profile hfresh =>
    have hcall := hinv.goes (.newCall s (.duplicate sessionId profile s.manager.ids) rfl .over)
    refine hcall.connectFor (getElem?_concat_eq_some.mpr (.inr ⟨rfl, rfl⟩)) hfresh ?_ rfl
    intro success profileId existing hsearch
    cases success with
    | false => cases hsearch
    | true =>
      cases hsearch
      exact ⟨rfl, hinv.ids_used⟩
  | passwordClosing hfailed =>
    rw [List.append_nil]
    exact (hinv.goes (.withPanel s _)).closing rfl _
  | @passwordConnecting profile password id hfailed hfresh =>
    have hstarted : Owned h (s.startPassword profile.id) := hinv.goes (.withPanel s _)
    have hcall := hstarted.goes (.newCall _ (.connectWithPassword (withPassword profile password)
      (s.panel.sessionId.bind s.panel.sessionOrder.indexOf) none []) rfl .over)
    exact hcall.connectPassword (getElem?_concat_eq_some.mpr (.inr ⟨rfl, rfl⟩)) rfl hfresh
  | startReconnect hevent hsession hprofile =>
    rw [List.append_nil]
    exact (hinv.goes (.withPanel s _)).closing rfl _
  | @startReconnectWorkspace workspaceId workspace hfound =>
    rw [List.append_nil]
    have hstarted := hinv.goes (.withPanel s { s.panel with workspaceReconnectInProgress := true })
    unfold startReconnectWorkspace
    split
    · exact hstarted.goes (.withPanel _ _)
    · exact hstarted.closing rfl _
  | closeTab | closeWorkspace =>
    rw [List.append_nil]
    exact hinv.closing rfl _
  | closed hat hphase hfresh hclosed => exact hinv.sessionClosed hat hfresh hclosed
  | finish hat hphase hfinish => exact hinv.finish hunmixed hat hphase hfinish
  | resized hat hphase =>
    rw [List.append_nil]
    exact (hinv.goes (.withPanel s _)).setOver hat
  | startRecording id path => exact hinv.quiet (.startRecording s id path)
  | connection hstep => exact hinv.quiet (.afterManager (Connections.listChange_of_step hstep) _)

theorem owned_initial (profiles : List Hop) : Owned [] (initial Connections.initial profiles) where
  listed hmem := absurd hmem List.not_mem_nil
  added hmem := absurd hmem List.not_mem_nil
  once hmem := absurd hmem List.not_mem_nil
  call hat := by cases hat
  search hat := by cases hat
  replaced hat := by cases hat
  uses hmem := absurd hmem List.not_mem_nil

/-- Where no session of a profile comes between a call and its own, each call works on its own. -/
theorem own_sessions {profiles : List Hop}
    (hreach : Reaches step Unmixed (initial Connections.initial profiles) h s) : OwnSessions h := by
  have hinv : Owned h s := hreach.invariant (I := Owned) (owned_initial profiles)
    fun hinv hunmixed hstep => hinv.step hunmixed (taken_of_step hstep)
  exact {
    own := hinv.uses
    distinct := fun huse huse' => hinv.once (hinv.uses huse) (hinv.uses huse') }

def plainProfile (id : String) : Hop := { id := id, name := "", host := "h", port := 22, username := "u" }

/-- Tabs of two profiles, of which the later one is ready first. -/
theorem own_sessions_two_tabs : ∃ h s, Reaches step Unmixed (initial Connections.initial
      [plainProfile "p", plainProfile "q"]) h s ∧ .used 0 .place "a" ∈ h ∧ .used 1 .place "b" ∈ h ∧
    OwnSessions h := by
  have hadded : Reaches step Unmixed (initial Connections.initial [plainProfile "p", plainProfile "q"]) _ _ :=
    .next (e := .retry (plainProfile "q") "b") (.next (e := .retry (plainProfile "p") "a") .start trivial rfl)
      (by exact trivial) rfl
  have hresolved := (hadded.next (e := .connection (.resolved 0 (.ok (.mk (plainProfile "p") none))))
    (by exact trivial) rfl).next (e := .connection (.resolved 1 (.ok (.mk (plainProfile "q") none))))
    (by exact trivial) rfl
  have haccepted := (hresolved.next (e := .connection (.accept 0 "c")) (by exact trivial) rfl).next
    (e := .connection (.accept 1 "d")) (by exact trivial) rfl
  have hreplied := (haccepted.next (e := .connection (.reply 0)) (by exact trivial) rfl).next
    (e := .connection (.reply 1)) (by exact trivial) rfl
  have hlater := hreplied.next (e := .finish 1) (by
    intro call success profileId existing hat hphase hsearch
    cases hat
    cases hsearch
    right
    refine ⟨[_], _, [], rfl, rfl, ?_⟩
    intro later hmem
    cases hmem) rfl
  have hfirst := hlater.next (e := .finish 0) (by
    intro call success profileId existing hat hphase hsearch
    cases hat
    cases hsearch
    right
    refine ⟨[], _, [_], rfl, rfl, ?_⟩
    intro later hmem
    obtain rfl := List.mem_singleton.mp hmem
    decide) rfl
  refine ⟨_, _, hfirst, ?_, ?_, own_sessions hfirst⟩
  · decide
  · decide

def opens (call : Nat) (id : String) : List PanelEvent :=
  [.connection (.resolved call (.ok (.mk (plainProfile "p") none))), .connection (.accept call id),
    .connection (.reply call)]

/-- Of two new tabs of one profile the first is ready first: it takes the session of the other. -/
theorem takes_session_of_other : ¬∀ (profiles : List Hop) h s,
    Reaches step (fun _ _ => True) (initial Connections.initial profiles) h s → OwnSessions h := by
  intro hall
  obtain ⟨h, s, hreach, hused, hadded⟩ :=
    Reaches.exists_history step (initial Connections.initial [plainProfile "p"])
      (P := fun h s => .used 0 .place "b" ∈ h ∧ .added 0 "b" ∉ h)
      (fun _ _ => true) (fun _ _ _ => trivial)
      ([.retry (plainProfile "p") "a", .retry (plainProfile "p") "b"] ++ opens 0 "c" ++ [.finish 0])
      (by decide)
  exact hadded ((hall _ h s hreach).own hused)

end TerminalPanel

end Portix.Terminal
