import Portix.Rdp.Clipboard

/-!
# Proofs: the clipboard

A poll announces only a text that differs from the last one that crossed the channel, and what
makes them differ is a change here. A text is written here only in answer to a request, and a text
is requested only for a copy on the server.
-/

namespace Portix.Rdp

open Lib

namespace Clipboards

variable {s s' : Clipboards} {event : ClipboardEvent} {o : List ClipboardObs}

def pending (s : Clipboards) : Bool := (s.sync.onLocalText s.here.text?).2.isSome

theorem nonEmpty_some (text : String) : nonEmpty (some text) = if text = "" then none else some text := by
  by_cases hempty : text = "" <;> simp [nonEmpty, Option.filter, hempty]

variable {sync : ClipboardSync} {text : Option String}

theorem onLocalText_eq_none_iff :
    (sync.onLocalText text).2 = none ↔ ∀ t, text = some t → t = "" ∨ sync.lastText = some t := by
  unfold ClipboardSync.onLocalText
  cases text with
  | none => simp [nonEmpty]
  | some read =>
    rw [nonEmpty_some]
    by_cases hempty : read = ""
    · simp [hempty]
    · by_cases hknown : sync.lastText = some read <;> simp [hempty, hknown]

theorem onLocalText_of_none (hquiet : (sync.onLocalText text).2 = none) : sync.onLocalText text = (sync, none) := by
  unfold ClipboardSync.onLocalText at hquiet ⊢
  split at hquiet
  · rfl
  · split at hquiet
    case isTrue hknown => simp [hknown]
    case isFalse => cases hquiet

theorem onLocalText_of_some {action : ClipboardAction} (hloud : (sync.onLocalText text).2 = some action) :
    ∃ t, text = some t ∧ t ≠ "" ∧ sync.onLocalText text = (⟨some t⟩, some (.announce true)) := by
  cases text with
  | none => cases hloud
  | some read =>
    unfold ClipboardSync.onLocalText at hloud ⊢
    rw [nonEmpty_some] at hloud ⊢
    by_cases hempty : read = ""
    · simp [hempty] at hloud
    · by_cases hknown : sync.lastText = some read
      · simp [hempty, hknown] at hloud
      · exact ⟨read, rfl, hempty, by simp [hempty, hknown]⟩

theorem pending_eq_false_iff : s.pending = false ↔ ∀ t, s.here.text? = some t → t = "" ∨ s.sync.lastText = some t := by
  rw [pending, ← onLocalText_eq_none_iff, Option.isSome_eq_false_iff, Option.isNone_iff_eq_none]

theorem pending_initial (here there : Content) : (initial here there).pending = (nonEmpty here.text?).isSome := by
  unfold pending ClipboardSync.onLocalText initial
  cases nonEmpty here.text? <;> rfl

theorem onPoll_cases (s : Clipboards) (readable : Bool) :
    (s.onPoll readable = ({ s with polled := s.polled || readable }, []) ∧
      (readable = true → s.pending = false)) ∨
    ∃ text, readable = true ∧ s.here = .text text ∧ text ≠ "" ∧ s.pending = true ∧ s.onPoll readable = ({ s with
        polled := true
        sync := ⟨some text⟩
        toServer := s.toServer ++ [.formatList true] }, [.pollAnnounced]) := by
  cases hpoll : (s.sync.onLocalText (s.localText readable)).2 with
  | none =>
    refine Or.inl ⟨?_, fun hread => ?_⟩
    · have hquiet := onLocalText_of_none hpoll
      simp only [localText] at hquiet
      simp [onPoll, localText, hquiet]
    · rw [pending]
      simp only [localText, hread, if_true] at hpoll
      rw [hpoll]
      rfl
  | some action =>
    obtain ⟨text, hread, hne, hloud⟩ := onLocalText_of_some hpoll
    cases readable with
    | false => cases hread
    | true =>
      have hhere : s.here = .text text := by
        cases hcontent : s.here with
        | text t => simpa [localText, hcontent, Content.text?] using hread
        | other => simp [localText, hcontent, Content.text?] at hread
      refine Or.inr ⟨text, rfl, hhere, hne, ?_, ?_⟩
      · rw [pending]
        simp only [localText, if_true] at hpoll
        rw [hpoll]
        rfl
      · simp only [localText, if_true] at hloud
        simp [onPoll, localText, hloud, perform]

/-- What the loop does with a PDU: it answers it with a request or a response, with a format list,
not at all, or by writing a text. -/
theorem onServerPdu_cases (s : Clipboards) (readable writable : Bool) (pdu : ToClient) :
    (∃ answer, (∀ text, pdu ≠ .formatDataResponse text) ∧
      (∀ hasText, answer ≠ .formatList hasText) ∧
      (answer = .formatDataRequest ↔ ∃ formats, pdu = .formatList formats ∧ cfUnicodeText ∈ formats) ∧
      s.onServerPdu readable writable pdu =
        ({ s with toServer := s.toServer ++ [answer] }, [])) ∨
    (pdu = .monitorReady ∧ s.onServerPdu readable writable pdu =
      ({ s with
        sync := ⟨nonEmpty (s.localText readable)⟩
        toServer := s.toServer ++ [.formatList (nonEmpty (s.localText readable)).isSome] },
        if readable then [] else [.unreadList])) ∨
    (s.onServerPdu readable writable pdu = (s, []) ∧
      (∀ formats, pdu = .formatList formats → cfUnicodeText ∉ formats) ∧
      ∀ sent, pdu = .formatDataResponse (some sent) → s.sync.lastText = some (trimNuls sent)) ∨
    ∃ sent, pdu = .formatDataResponse (some sent) ∧ s.sync.lastText ≠ some (trimNuls sent) ∧
      s.onServerPdu readable writable pdu =
        ({ s with
          sync := ⟨some (trimNuls sent)⟩
          here := if writable then .text (trimNuls sent) else s.here },
          [.wroteLocal (trimNuls sent) writable]) := by
  cases pdu with
  | monitorReady => exact Or.inr (Or.inl ⟨rfl, rfl⟩)
  | formatList formats =>
    by_cases htext : cfUnicodeText ∈ formats
    · refine Or.inl ⟨.formatDataRequest, by simp, by simp, by simp [htext], ?_⟩
      simp [onServerPdu, backendEvent, ClipboardSync.onRemoteEvent, htext, perform, eventObs]
    · refine Or.inr (Or.inr (Or.inl ⟨?_, ?_, by simp⟩))
      · simp [onServerPdu, backendEvent, ClipboardSync.onRemoteEvent, htext, eventObs]
      · rintro _ ⟨rfl⟩
        exact htext
  | formatDataRequest format =>
    refine Or.inl ⟨_, ?_, ?_, ?_, rfl⟩ <;> simp
  | formatDataResponse text =>
    cases text with
    | none => exact Or.inr (Or.inr (Or.inl ⟨rfl, by simp, by simp⟩))
    | some sent =>
      by_cases hknown : s.sync.lastText = some (trimNuls sent)
      · refine Or.inr (Or.inr (Or.inl ⟨?_, by simp, by simp [hknown]⟩))
        simp [onServerPdu, backendEvent, ClipboardSync.onRemoteEvent, hknown, eventObs]
      · refine Or.inr (Or.inr (Or.inr ⟨sent, rfl, hknown, ?_⟩))
        cases writable <;>
          simp [onServerPdu, backendEvent, ClipboardSync.onRemoteEvent, hknown, eventObs, perform]

inductive Taken (s : Clipboards) :
    ClipboardEvent → Clipboards → List ClipboardObs → Prop where
  | copyHere (content : Content) : Taken s (.copyHere content)
      { s with here := content, polled := false, newest := some (.here, content) } [.copiedHere]
  | copyThere (content : Content) : Taken s (.copyThere content)
      { s with
        there := .own content
        toClient := s.toClient ++ [.formatList content.formats]
        newest := some (.there, content) } [.copiedThere]
  | pasteThere (format : UInt32) : Taken s (.pasteThere format)
      { s with toClient := s.toClient ++ [.formatDataRequest format] } []
  | ready : Taken s .ready { s with toClient := s.toClient ++ [.monitorReady] } []
  | quietPoll {readable : Bool} (hquiet : readable = true → s.pending = false) :
      Taken s (.poll readable) { s with polled := s.polled || readable } []
  | loudPoll {text : String} (hhere : s.here = .text text) (hne : text ≠ "")
      (hpending : s.pending = true) : Taken s (.poll true)
      { s with
        polled := true
        sync := ⟨some text⟩
        toServer := s.toServer ++ [.formatList true] } [.pollAnnounced]
  | server {pdu : ToServer} {rest : List ToServer} (hpdu : s.toServer = pdu :: rest) :
      Taken s .deliverToServer (({ s with toServer := rest }).onClientPdu pdu) []
  | answer {readable writable : Bool} {pdu : ToClient} {rest : List ToClient} {answer : ToServer}
      (hpdu : s.toClient = pdu :: rest) (hother : ∀ text, pdu ≠ .formatDataResponse text)
      (hanswer : ∀ hasText, answer ≠ .formatList hasText)
      (hrequest : answer = .formatDataRequest ↔ ∃ formats, pdu = .formatList formats ∧
        cfUnicodeText ∈ formats) :
      Taken s (.deliverToClient readable writable)
        { s with toClient := rest, toServer := s.toServer ++ [answer] } []
  | list {readable writable : Bool} {rest : List ToClient} (hpdu : s.toClient = .monitorReady :: rest) :
      Taken s (.deliverToClient readable writable)
        { s with
          toClient := rest
          sync := ⟨nonEmpty (s.localText readable)⟩
          toServer := s.toServer ++ [.formatList (nonEmpty (s.localText readable)).isSome] }
        (if readable then [] else [.unreadList])
  | skip {readable writable : Bool} {pdu : ToClient} {rest : List ToClient}
      (hpdu : s.toClient = pdu :: rest)
      (hformats : ∀ formats, pdu = .formatList formats → cfUnicodeText ∉ formats)
      (hknown : ∀ sent, pdu = .formatDataResponse (some sent) →
        s.sync.lastText = some (trimNuls sent)) :
      Taken s (.deliverToClient readable writable) { s with toClient := rest } []
  | write {readable writable : Bool} {sent : String} {rest : List ToClient}
      (hpdu : s.toClient = .formatDataResponse (some sent) :: rest)
      (hnew : s.sync.lastText ≠ some (trimNuls sent)) :
      Taken s (.deliverToClient readable writable)
        { s with
          toClient := rest
          sync := ⟨some (trimNuls sent)⟩
          here := if writable then .text (trimNuls sent) else s.here }
        [.wroteLocal (trimNuls sent) writable]

theorem taken_of_step (hstep : clipboardStep s event = some (s', o)) : Taken s event s' o := by
  cases event with
  | copyHere content =>
    cases hstep
    exact .copyHere content
  | copyThere content =>
    cases hstep
    exact .copyThere content
  | pasteThere format =>
    cases hstep
    exact .pasteThere format
  | ready =>
    cases hstep
    exact .ready
  | poll readable =>
    have hpoll := Option.some.inj hstep
    rcases onPoll_cases s readable with ⟨heq, hquiet⟩ | ⟨text, rfl, hhere, hne, hpending, heq⟩
    · cases heq.symm.trans hpoll
      exact .quietPoll hquiet
    · cases heq.symm.trans hpoll
      exact .loudPoll hhere hne hpending
  | deliverToServer =>
    rw [clipboardStep] at hstep
    split at hstep
    · cases hstep
    · rename_i pdu rest hpdu
      cases hstep
      exact .server hpdu
  | deliverToClient readable writable =>
    rw [clipboardStep] at hstep
    split at hstep
    · cases hstep
    · rename_i pdu rest hpdu
      have hloop := Option.some.inj hstep
      rcases onServerPdu_cases { s with toClient := rest } readable writable pdu with
        ⟨answer, hother, hanswer, hrequest, heq⟩ | ⟨rfl, heq⟩ | ⟨heq, hformats, hknown⟩ |
        ⟨sent, rfl, hnew, heq⟩ <;> obtain ⟨rfl, rfl⟩ := Prod.mk.inj (heq.symm.trans hloop)
      · exact .answer hpdu hother hanswer hrequest
      · exact .list hpdu
      · exact .skip hpdu hformats hknown
      · exact .write hpdu hnew

theorem toNat_pending_le (s : Clipboards) : s.pending.toNat ≤ 1 := Bool.toNat_le _

theorem pending_of_list (s : Clipboards) (rest : List ToClient) (toServer : List ToServer) : pending { s with
      toClient := rest, sync := ⟨nonEmpty s.here.text?⟩, toServer := toServer } = false :=
  pending_eq_false_iff.mpr fun t ht => by
    rw [ht, nonEmpty_some]
    by_cases hempty : t = "" <;> simp [hempty]

theorem announces_step (hstep : clipboardStep s event = some (s', o)) :
    o.count .pollAnnounced + s'.pending.toNat ≤ s.pending.toNat + o.countP ClipboardObs.isChange := by
  cases taken_of_step hstep with
  | copyHere content =>
    have hle := toNat_pending_le { s with
      here := content, polled := false, newest := some (.here, content) }
    simp [ClipboardObs.isChange]
    omega
  | @loudPoll text hhere hne hpending =>
    have hnone : pending { s with
        polled := true, sync := ⟨some text⟩, toServer := s.toServer ++ [.formatList true] } =
        false := pending_eq_false_iff.mpr fun t ht => by
      rw [hhere] at ht
      exact Or.inr ht
    rw [hnone, hpending]
    exact Nat.le_refl 1
  | @server pdu rest hpdu =>
    cases pdu <;> simp [onClientPdu, pending]
  | @list readable writable rest hpdu =>
    cases readable with
    | false =>
      refine Nat.le_trans (Nat.add_le_add_left (toNat_pending_le _) _) ?_
      simp [ClipboardObs.isChange]
    | true => simp [localText, pending_of_list]
  | @write readable writable sent rest hpdu hnew =>
    cases writable with
    | false =>
      refine Nat.le_trans (Nat.add_le_add_left (toNat_pending_le _) _) ?_
      simp [ClipboardObs.isChange]
    | true =>
      have hnone : pending { s with
          toClient := rest, sync := ⟨some (trimNuls sent)⟩, here := .text (trimNuls sent) } = false :=
        pending_eq_false_iff.mpr fun t ht => Or.inr ht
      simp [hnone]
  | _ => simp [pending, ClipboardObs.isChange]

/-- A PDU from the server that stems from a copy there and leads to a text being written here. -/
def carriesText : ToClient → Bool
  | .formatList formats => formats.any (· = cfUnicodeText)
  | .formatDataResponse text => text.isSome
  | _ => false

def coming (s : Clipboards) : Nat :=
  s.toClient.countP carriesText + s.toServer.count .formatDataRequest

theorem writes_step (hstep : clipboardStep s event = some (s', o)) :
    o.countP ClipboardObs.isWrite + s'.coming ≤ s.coming + o.count .copiedThere := by
  cases taken_of_step hstep with
  | copyThere content =>
    have hone := List.countP_le_length (p := carriesText) (l := [.formatList content.formats])
    simp [coming, ClipboardObs.isWrite] at hone ⊢
    omega
  | @server pdu rest hpdu =>
    cases pdu with
    | formatDataRequest =>
      have hone := List.countP_le_length (p := carriesText)
        (l := [.formatDataResponse (s.there.text?.map fun text => text.push nul)])
      simp [coming, onClientPdu, hpdu] at hone ⊢
      omega
    | _ => simp [coming, onClientPdu, hpdu]
  | @answer readable writable pdu rest answer hpdu hother hanswer hrequest =>
    by_cases htext : answer = .formatDataRequest
    · obtain ⟨formats, rfl, hformat⟩ := hrequest.mp htext
      simp [coming, hpdu, htext, carriesText, hformat, List.countP_cons]
      omega
    · simp [coming, hpdu, htext, List.countP_cons]
  | @list readable writable rest hpdu =>
    cases readable <;> simp [coming, hpdu, carriesText, ClipboardObs.isWrite]
  | skip hpdu =>
    simp [coming, hpdu, List.countP_cons]
  | write hpdu hnew =>
    simp [coming, hpdu, carriesText, ClipboardObs.isWrite, List.countP_cons]
    omega
  | _ => simp [coming, carriesText, ClipboardObs.isWrite]

theorem pending_of_wrote {text : String} (hstep : clipboardStep s event = some (s', o))
    (hwrote : .wroteLocal text true ∈ o) : s'.pending = false := by
  cases taken_of_step hstep with
  | @list readable writable rest hpdu =>
    cases readable <;> simp at hwrote
  | @write readable writable sent rest hpdu hnew =>
    obtain ⟨rfl, rfl⟩ : text = trimNuls sent ∧ true = writable := by simpa using hwrote
    exact pending_eq_false_iff.mpr fun t ht => Or.inr ht
  | _ => simp at hwrote

theorem obs_cases (hstep : clipboardStep s event = some (s', o)) : o = [] ∨ ∃ x, o = [x] := by
  cases taken_of_step hstep with
  | @list readable writable rest hpdu =>
    cases readable <;> simp
  | _ => simp

/-- What is known of a run after a text from the server was written here: the poll announces
nothing until the clipboard here changes. -/
structure Echoless (h : List ClipboardObs) (s : Clipboards) : Prop where
  pending : ∀ h1 text h2, h = h1 ++ .wroteLocal text true :: h2 →
    (∀ x ∈ h2, x.isChange = false) → s.pending = false
  announced : ∀ h1 text h2 h3, h = h1 ++ .wroteLocal text true :: h2 ++ .pollAnnounced :: h3 →
    ∃ x ∈ h2, x.isChange = true

theorem snoc_eq_append_cons {α : Type} {h h1 h2 : List α} {x y : α} (heq : h ++ [x] = h1 ++ y :: h2) :
    (h2 = [] ∧ x = y ∧ h = h1) ∨ ∃ h3, h2 = h3 ++ [x] ∧ h = h1 ++ y :: h3 := by
  rcases List.eq_nil_or_concat h2 with rfl | ⟨h3, z, rfl⟩
  · obtain ⟨rfl, hlast⟩ := List.append_inj' heq rfl
    exact Or.inl ⟨rfl, List.singleton_inj.mp hlast, rfl⟩
  · rw [List.concat_eq_append, ← List.cons_append, ← List.append_assoc] at heq
    obtain ⟨rfl, hlast⟩ := List.append_inj' heq rfl
    exact Or.inr ⟨h3, by rw [List.singleton_inj.mp hlast, List.concat_eq_append], rfl⟩

theorem Echoless.start {s : Clipboards} : Echoless [] s :=
  ⟨fun h1 text h2 heq => by simp at heq, fun h1 text h2 h3 heq => by simp at heq⟩

theorem Echoless.step {h : List ClipboardObs} (hinv : Echoless h s)
    (hstep : clipboardStep s event = some (s', o)) : Echoless (h ++ o) s' := by
  have hcount := announces_step hstep
  rcases obs_cases hstep with rfl | ⟨x, rfl⟩
  · rw [List.append_nil]
    refine ⟨fun h1 text h2 heq hquiet => ?_, hinv.announced⟩
    have hbefore := hinv.pending h1 text h2 heq hquiet
    simpa [hbefore] using hcount
  · constructor
    · intro h1 text h2 heq hquiet
      rcases snoc_eq_append_cons heq with ⟨-, rfl, -⟩ | ⟨h3, rfl, rfl⟩
      · exact pending_of_wrote hstep (List.mem_singleton_self _)
      · have hbefore := hinv.pending h1 text h3 rfl fun y hy => hquiet y (by simp [hy])
        have hone := hquiet x (by simp)
        simpa [hbefore, hone] using Nat.le_trans (Nat.le_add_left _ _) hcount
    · intro h1 text h2 h3 heq
      rcases snoc_eq_append_cons heq with ⟨-, rfl, rfl⟩ | ⟨h4, rfl, rfl⟩
      · by_contra hquiet
        have hbefore := hinv.pending h1 text h2 rfl fun y hy => by
          by_contra hchange
          exact hquiet ⟨y, hy, by simpa using hchange⟩
        simp [hbefore, ClipboardObs.isChange] at hcount
      · exact hinv.announced h1 text h2 h4 rfl

end Clipboards

open Clipboards

/-- Polls announce no more texts than the clipboard here has changed, but for the one it held at
the start; no more texts are written here than the server's user copied; and a text written here is
not announced back until the clipboard here changes again. It changes when the user here copies, or
when it could not be written or read. -/
theorem clipboard_no_echo (here there : Content) (h : List ClipboardObs) (s : Clipboards)
    (hreach : Reaches clipboardStep (fun _ _ => True) (.initial here there) h s) :
    h.count .pollAnnounced ≤
        h.countP ClipboardObs.isChange + (nonEmpty here.text?).isSome.toNat ∧
      h.countP ClipboardObs.isWrite ≤ h.count .copiedThere ∧
      ∀ h1 text h2 h3, h = h1 ++ .wroteLocal text true :: h2 ++ .pollAnnounced :: h3 →
        ∃ x ∈ h2, x.isChange = true := by
  have hannounces : h.count .pollAnnounced + s.pending.toNat ≤
      (Clipboards.initial here there).pending.toNat + h.countP ClipboardObs.isChange :=
    hreach.potential (fun s => s.pending.toNat) announces_step
  have hwrites : h.countP ClipboardObs.isWrite + s.coming ≤
      (Clipboards.initial here there).coming + h.count .copiedThere := hreach.potential coming writes_step
  have hecholess : Echoless h s := hreach.invariant .start fun hinv _ hstep => hinv.step hstep
  have hfirst : (Clipboards.initial here there).pending = (nonEmpty here.text?).isSome :=
    pending_initial here there
  have hnone : (Clipboards.initial here there).coming = 0 := rfl
  rw [hfirst] at hannounces
  exact ⟨by omega, by omega, hecholess.announced⟩

/-- A text that is copied on the server is written here, and the poll keeps quiet about it. -/
theorem clipboard_no_echo_remote_text :
    ∃ h s, Reaches clipboardStep (fun _ _ => True) (.initial .other .other) h s ∧
      h = [.copiedThere, .wroteLocal "a" true] ∧ s.here = .text "a" ∧
      h.count .pollAnnounced ≤ h.countP ClipboardObs.isChange + 0 := by
  have hstart : Reaches clipboardStep (fun _ _ => True) (.initial .other .other) []
      (.initial .other .other) := .start
  have hreach := Reaches.of_runEvents [.copyThere (.text "a"), .deliverToClient true true,
    .deliverToServer, .deliverToClient true true, .poll true] (fun _ _ _ => trivial) hstart rfl
  exact ⟨_, _, hreach, rfl, rfl, (clipboard_no_echo .other .other _ _ hreach).1⟩

/-- What was on the clipboard before the session is announced without a copy here; a text is
announced again when another one could not be written, or when the clipboard could not be read for a
format list; and so is a text that came from the server. -/
theorem clipboard_announces_again :
    (¬ ∀ h s, Reaches clipboardStep (fun _ _ => True) (.initial (.text "a") .other) h s →
      h.count .pollAnnounced ≤ h.count .copiedHere) ∧
    (¬ ∀ h s, Reaches clipboardStep (fun _ _ => True) (.initial .other .other) h s →
      .unreadList ∉ h → h.count .pollAnnounced ≤ h.count .copiedHere) ∧
    (¬ ∀ h s, Reaches clipboardStep (fun _ _ => True) (.initial .other .other) h s →
      (∀ text, .wroteLocal text false ∉ h) → h.count .pollAnnounced ≤ h.count .copiedHere) ∧
    ¬ ∀ h s, Reaches clipboardStep (fun _ _ => True) (.initial .other .other) h s →
      ∀ h1 text h2 h3, h = h1 ++ .wroteLocal text true :: h2 ++ .pollAnnounced :: h3 →
        .copiedHere ∈ h2 := by
  have hstart : ∀ here, Reaches clipboardStep (fun _ _ => True) (.initial here .other) []
      (.initial here .other) := fun _ => .start
  refine ⟨fun hclaim => ?_, fun hclaim => ?_, fun hclaim => ?_, fun hclaim => ?_⟩
  · have hreach := Reaches.of_runEvents [.poll true] (fun _ _ _ => trivial) (hstart (.text "a")) rfl
    exact absurd (hclaim _ _ hreach) (by decide)
  · have hreach : Reaches clipboardStep (fun _ _ => True) (.initial .other .other)
        [.copiedHere, .pollAnnounced, .copiedThere, .wroteLocal "b" false, .pollAnnounced] _ :=
      Reaches.of_runEvents [.copyHere (.text "a"), .poll true, .deliverToServer,
        .copyThere (.text "b"), .deliverToClient true true, .deliverToServer,
        .deliverToClient true false, .poll true] (fun _ _ _ => trivial) (hstart .other) rfl
    exact absurd (hclaim _ _ hreach (by decide)) (by decide)
  · have hreach : Reaches clipboardStep (fun _ _ => True) (.initial .other .other)
        [.copiedHere, .pollAnnounced, .unreadList, .pollAnnounced] _ :=
      Reaches.of_runEvents [.copyHere (.text "a"), .poll true, .ready, .deliverToClient false true,
        .poll true] (fun _ _ _ => trivial) (hstart .other) rfl
    exact absurd (hclaim _ _ hreach (by simp)) (by decide)
  · have hreach : Reaches clipboardStep (fun _ _ => True) (.initial .other .other)
        [.copiedThere, .wroteLocal "a" true, .copiedThere, .wroteLocal "b" false,
          .pollAnnounced] _ :=
      Reaches.of_runEvents [.copyThere (.text "a"), .deliverToClient true true,
        .deliverToServer, .deliverToClient true true, .copyThere (.text "b"),
        .deliverToClient true true, .deliverToServer, .deliverToClient true false, .poll true]
        (fun _ _ _ => trivial) (hstart .other) rfl
    exact absurd (hclaim _ _ hreach [.copiedThere] "a" [.copiedThere, .wroteLocal "b" false] [] rfl)
      (by decide)

end Portix.Rdp
