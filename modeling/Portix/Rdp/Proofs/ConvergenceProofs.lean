import Portix.Rdp.Proofs.ClipboardProofs

/-!
# Proofs: the clipboards converge

What the server is to hold and what is to be here can be read off the PDUs under way. As long as no
step loses the newest text, it is on the clipboard of its own side, and on its way to the other.
-/

namespace Portix.Rdp

open Lib

namespace Clipboards

variable {s s' : Clipboards} {event : ClipboardEvent} {o : List ClipboardObs}

theorem trimNuls_push (text : String) : trimNuls (text.push nul) = trimNuls text := by
  rw [trimNuls, trimNuls, String.toList_push, List.rdropWhile_concat_pos _ _ _ (by decide)]

/-- A text of the server was announced, or asked for. -/
def Requested (s : Clipboards) : Prop :=
  (∃ formats, .formatList formats ∈ s.toClient ∧ cfUnicodeText ∈ formats) ∨
    .formatDataRequest ∈ s.toServer

/-- A text the user here copied last is here, and the server is told of it once it was polled. -/
def HereOnTop (s : Clipboards) : Prop := ∀ text, s.NewestIs .here text →
  s.here = .text text ∧ (s.polled = true → s.announcing = .announced true)

/-- A text the server's user copied last is still there, and on its way here; or it gave way to a
list that tells of a text, and it is this text that will be here. -/
def ThereOnTop (s : Clipboards) : Prop := ∀ text, s.NewestIs .there text →
  trimNuls text = text ∧
    ((s.there = .own (.text text) ∧ (s.Requested ∨ s.landing = .text text)) ∨
      (s.there = .announced true ∧ s.landing = .text text))

theorem newest_server (s : Clipboards) (pdu : ToServer) : (s.onClientPdu pdu).newest = s.newest := by
  cases pdu <;> rfl

theorem announcing_server {pdu : ToServer} {rest : List ToServer} (hpdu : s.toServer = pdu :: rest) :
    (({ s with toServer := rest }).onClientPdu pdu).announcing = s.announcing := by
  cases pdu <;> simp [announcing, onClientPdu, hpdu]

theorem announcing_answer {answer : ToServer} (hanswer : ∀ hasText, answer ≠ .formatList hasText)
    (rest : List ToClient) :
    announcing { s with toClient := rest, toServer := s.toServer ++ [answer] } = s.announcing := by
  cases answer with
  | formatList hasText => exact absurd rfl (hanswer hasText)
  | _ => simp [announcing]

theorem landing_of_response {text : String} {before : List ToClient}
    (hsent : s.toClient = before ++ [.formatDataResponse (some (text.push nul))]) :
    s.landing = .text (trimNuls text) := by
  simp [landing, hsent, trimNuls_push]

theorem HereOnTop.step (hinv : HereOnTop s) (hguard : KeepsNewest s event)
    (hstep : clipboardStep s event = some (s', o)) : HereOnTop s' := by
  cases taken_of_step hstep with
  | copyHere content =>
    rintro text ⟨rfl⟩
    exact ⟨rfl, fun hpolled => by cases hpolled⟩
  | copyThere content => intro text hnewest; cases hnewest
  | pasteThere format => exact hinv
  | ready => exact hinv
  | @quietPoll readable hquiet =>
    intro text hnewest
    obtain ⟨hhere, htold⟩ := hinv text hnewest
    refine ⟨hhere, fun hpolled => ?_⟩
    cases readable with
    | false => exact htold (by simpa using hpolled)
    | true =>
      have hknown := pending_eq_false_iff.mp (hquiet rfl) text (by rw [hhere]; rfl)
      exact hguard rfl text hnewest hknown
  | @loudPoll read hhere hne hpending =>
    intro text hnewest
    exact ⟨(hinv text hnewest).1, fun _ => by simp [announcing]⟩
  | @server pdu rest hpdu =>
    intro text hnewest
    rw [NewestIs, newest_server] at hnewest
    obtain ⟨hhere, htold⟩ := hinv text hnewest
    refine ⟨by cases pdu <;> exact hhere, fun hpolled => ?_⟩
    rw [announcing_server hpdu]
    exact htold (by cases pdu <;> exact hpolled)
  | @answer readable writable pdu rest answer hpdu hother hanswer hrequest =>
    intro text hnewest
    obtain ⟨hhere, htold⟩ := hinv text hnewest
    exact ⟨hhere, fun hpolled => by rw [announcing_answer hanswer]; exact htold hpolled⟩
  | @list readable writable rest hpdu =>
    intro text hnewest
    obtain ⟨hhere, -⟩ := hinv text hnewest
    obtain ⟨rfl, hne⟩ := hguard.1 rest hpdu text hnewest
    refine ⟨hhere, fun _ => ?_⟩
    simp [announcing, localText, hhere, Content.text?, nonEmpty_some, hne]
  | @skip readable writable pdu rest hpdu => exact hinv
  | @write readable writable sent rest hpdu hnew =>
    intro text hnewest
    obtain ⟨hhere, htold⟩ := hinv text hnewest
    refine ⟨?_, htold⟩
    rcases (hguard.2 sent rest hpdu).1 text hnewest with rfl | hknown | rfl
    · cases writable
      · exact hhere
      · rfl
    · exact absurd hknown hnew
    · exact hhere

theorem ThereOnTop.of_same (hinv : ThereOnTop s) (hnewest : s'.newest = s.newest) (hthere : s'.there = s.there)
    (hlanding : ∀ text, s.NewestIs .there text → s'.landing = s.landing)
    (hrequested : s.Requested → s'.Requested) : ThereOnTop s' := by
  intro text htop
  rw [NewestIs, hnewest] at htop
  rw [hthere, hlanding text htop]
  exact (hinv text htop).imp_right
    (Or.imp_left (And.imp_right (Or.imp_left hrequested)))

theorem Requested.of_subset (hrequested : s.Requested) (hclient : s.toClient ⊆ s'.toClient)
    (hserver : s.toServer ⊆ s'.toServer) : s'.Requested :=
  hrequested.imp (fun ⟨formats, hmem, htext⟩ => ⟨formats, hclient hmem, htext⟩) fun hmem => hserver hmem

theorem Requested.of_taken {pdu : ToClient} {rest : List ToClient} (hrequested : s.Requested)
    (hpdu : s.toClient = pdu :: rest) (hclient : s'.toClient = rest)
    (hserver : s.toServer ⊆ s'.toServer)
    (hanswered : ∀ formats, pdu = .formatList formats → cfUnicodeText ∈ formats →
      .formatDataRequest ∈ s'.toServer) : s'.Requested := by
  rcases hrequested with ⟨formats, hmem, htext⟩ | hmem
  · rw [hpdu] at hmem
    rcases List.mem_cons.mp hmem with rfl | hrest
    · exact Or.inr (hanswered formats rfl htext)
    · exact Or.inl ⟨formats, hclient ▸ hrest, htext⟩
  · exact Or.inr (hserver hmem)

theorem landing_other {pdu : ToClient} {rest : List ToClient} (hpdu : s.toClient = pdu :: rest)
    (hother : ∀ sent, pdu ≠ .formatDataResponse (some sent)) (sync : ClipboardSync)
    (toServer : List ToServer) :
    landing { s with toClient := rest, sync := sync, toServer := toServer } = s.landing := by
  cases pdu with
  | formatDataResponse text =>
    cases text with
    | none => simp [landing, hpdu]
    | some sent => exact absurd rfl (hother sent)
  | _ => simp [landing, hpdu]

theorem ThereOnTop.step (hinv : ThereOnTop s) (hguard : KeepsNewest s event)
    (hstep : clipboardStep s event = some (s', o)) : ThereOnTop s' := by
  cases taken_of_step hstep with
  | copyHere content => intro text hnewest; cases hnewest
  | copyThere content =>
    rintro text ⟨rfl⟩
    exact ⟨hguard, Or.inl ⟨rfl, Or.inl (Or.inl
      ⟨[cfUnicodeText], List.mem_append_right _ (List.mem_singleton_self _), by simp⟩)⟩⟩
  | pasteThere format =>
    exact hinv.of_same rfl rfl (fun text _ => by simp [landing])
      fun hrequested => hrequested.of_subset (by simp) (by simp)
  | ready =>
    exact hinv.of_same rfl rfl (fun text _ => by simp [landing])
      fun hrequested => hrequested.of_subset (by simp) (by simp)
  | @quietPoll readable hquiet => exact hinv
  | @loudPoll read hhere hne hpending =>
    exact hinv.of_same rfl rfl (fun text _ => rfl) fun hrequested => hrequested.of_subset (by simp) (by simp)
  | @server pdu rest hpdu =>
    intro text hnewest
    rw [NewestIs, newest_server] at hnewest
    obtain ⟨htrim, htop⟩ := hinv text hnewest
    refine ⟨htrim, ?_⟩
    cases pdu with
    | formatList hasText =>
      obtain ⟨rfl, hlanding⟩ := hguard hasText rest hpdu text hnewest
      exact Or.inr ⟨rfl, hlanding⟩
    | formatDataRequest =>
      rcases htop with ⟨hthere, -⟩ | ⟨hthere, hlanding⟩
      · refine Or.inl ⟨hthere, Or.inr ?_⟩
        rw [← htrim]
        exact landing_of_response (by rw [onClientPdu, hthere]; rfl)
      · refine Or.inr ⟨hthere, ?_⟩
        simpa [landing, onClientPdu, hthere, RemoteContent.text?] using hlanding
    | formatDataResponse sent =>
      have hsame : s.Requested → Requested { s with toServer := rest } := by
        rintro (hlist | hmem)
        · exact Or.inl hlist
        · rw [hpdu] at hmem
          exact Or.inr (by simpa using hmem)
      exact htop.imp_left (And.imp_right (Or.imp_left hsame))
  | @answer readable writable pdu rest answer hpdu hother hanswer hrequest =>
    refine hinv.of_same rfl rfl (fun text _ => landing_other hpdu (fun sent => hother _) _ _)
      fun hrequested => hrequested.of_taken hpdu rfl (by simp) ?_
    rintro formats rfl htext
    simp [hrequest.mpr ⟨formats, rfl, htext⟩]
  | @list readable writable rest hpdu =>
    exact hinv.of_same rfl rfl (fun text _ => landing_other hpdu (by simp) _ _)
      fun hrequested => hrequested.of_taken hpdu rfl (by simp) (by simp)
  | @skip readable writable pdu rest hpdu hformats hknown =>
    refine hinv.of_same rfl rfl (fun text htop => ?_) fun hrequested => hrequested.of_taken hpdu rfl (by simp)
        fun formats hlist htext => absurd htext (hformats formats hlist)
    by_cases hresponse : ∃ sent, pdu = .formatDataResponse (some sent)
    · obtain ⟨sent, rfl⟩ := hresponse
      have hhere := (hguard.2 sent rest hpdu).2 text htop
      rw [if_pos (hknown sent rfl)] at hhere
      simp [landing, hpdu, hhere]
    · exact landing_other hpdu (fun sent heq => hresponse ⟨sent, heq⟩) _ _
  | @write readable writable sent rest hpdu hnew =>
    refine hinv.of_same rfl rfl (fun text htop => ?_) fun hrequested => hrequested.of_taken hpdu rfl (by simp) (by simp)
    have hdone := (hguard.2 sent rest hpdu).2 text htop
    rw [if_neg hnew] at hdone
    simp [landing, hpdu, hdone]

end Clipboards

open Clipboards

theorem Clipboards.converged_of_onTop {s : Clipboards} (hhere : HereOnTop s) (hthere : ThereOnTop s) : s.Converged := by
  rintro ⟨hserver, hclient, hpolled⟩ side text hnewest
  cases side with
  | here =>
    obtain ⟨hcontent, htold⟩ := hhere text hnewest
    have hannounced : s.there = .announced true := by
      simpa [announcing, hserver] using htold hpolled
    refine ⟨by rw [pasteHere, hcontent]; rfl, ?_⟩
    simp [pasteThere, hannounced, localText, hcontent, ClipboardSync.onRemoteEvent, Content.text?]
  | there =>
    obtain ⟨-, htop⟩ := hthere text hnewest
    have hnone : ¬ s.Requested := by
      rintro (⟨formats, hmem, -⟩ | hmem)
      · simp [hclient] at hmem
      · simp [hserver] at hmem
    have harrived : s.landing = s.here := by simp [landing, hclient]
    rw [harrived] at htop
    rcases htop with ⟨hown, hcame⟩ | ⟨hannounced, hcontent⟩
    · have hcontent := hcame.resolve_left hnone
      exact ⟨by rw [pasteHere, hcontent]; rfl, by rw [pasteThere, hown]; rfl⟩
    · refine ⟨by rw [pasteHere, hcontent]; rfl, ?_⟩
      simp [pasteThere, hannounced, localText, hcontent, ClipboardSync.onRemoteEvent, Content.text?]

/-- In a run in which no step loses the newest text, both sides paste it whenever all is at rest. -/
theorem clipboards_converge (here there : Content) (h : List ClipboardObs) (s : Clipboards)
    (hreach : Reaches clipboardStep KeepsNewest (.initial here there) h s) : s.Converged := by
  have hfirst : HereOnTop (.initial here there) ∧ ThereOnTop (.initial here there) :=
    ⟨by rintro text ⟨⟩, by rintro text ⟨⟩⟩
  have hinv : HereOnTop s ∧ ThereOnTop s :=
    Reaches.invariant (I := fun _ s => HereOnTop s ∧ ThereOnTop s) hfirst
      (fun hinv hguard hstep => ⟨hinv.1.step hguard hstep, hinv.2.step hguard hstep⟩) hreach
  exact converged_of_onTop hinv.1 hinv.2

/-- A text of the server, and after it one copied here, get to the other side. -/
theorem clipboards_converge_twice :
    ∃ h s, Reaches clipboardStep KeepsNewest (.initial .other .other) h s ∧
      s.here = .text "b" ∧ h.count .copiedThere = 1 ∧
      s.pasteHere = some "b" ∧ s.pasteThere = some "b" := by
  have hstart : Reaches clipboardStep KeepsNewest (.initial .other .other) [] (.initial .other .other) :=
    .start
  have hcopied : Reaches clipboardStep KeepsNewest (.initial .other .other) _
      ⟨⟨none⟩, .other, .own (.text "a"), [], [.formatList [cfUnicodeText]], true,
        some (.there, .text "a")⟩ :=
    hstart.next (e := .copyThere (.text "a")) rfl rfl
  have hasked : Reaches clipboardStep KeepsNewest (.initial .other .other) _
      ⟨⟨none⟩, .other, .own (.text "a"), [.formatDataRequest], [], true,
        some (.there, .text "a")⟩ :=
    hcopied.next (e := .deliverToClient true true) ⟨by rintro rest ⟨⟩, by rintro sent rest ⟨⟩⟩ rfl
  have hanswered : Reaches clipboardStep KeepsNewest (.initial .other .other) _
      ⟨⟨none⟩, .other, .own (.text "a"), [], [.formatDataResponse (some ("a".push nul))], true,
        some (.there, .text "a")⟩ :=
    hasked.next (e := .deliverToServer) (by rintro hasText rest ⟨⟩) rfl
  have hwritten : Reaches clipboardStep KeepsNewest (.initial .other .other) _
      ⟨⟨some "a"⟩, .text "a", .own (.text "a"), [], [], true, some (.there, .text "a")⟩ :=
    hanswered.next (e := .deliverToClient true true) ⟨by rintro rest ⟨⟩, by
      rintro sent rest ⟨⟩
      exact ⟨by rintro text ⟨⟩, fun text _ => rfl⟩⟩ rfl
  have hcopiedHere : Reaches clipboardStep KeepsNewest (.initial .other .other) _
      ⟨⟨some "a"⟩, .text "b", .own (.text "a"), [], [], false, some (.here, .text "b")⟩ :=
    hwritten.next (e := .copyHere (.text "b")) trivial rfl
  have hpolled : Reaches clipboardStep KeepsNewest (.initial .other .other) _
      ⟨⟨some "b"⟩, .text "b", .own (.text "a"), [.formatList true], [], true,
        some (.here, .text "b")⟩ :=
    hcopiedHere.next (e := .poll true) (by
      rintro - text ⟨⟩ (hempty | hknown)
      · exact absurd hempty (by decide)
      · exact absurd hknown (by decide)) rfl
  have htold := hpolled.next (e := .deliverToServer) (by rintro hasText rest ⟨⟩ text ⟨⟩) rfl
  have hpastes := clipboards_converge .other .other _ _ htold ⟨rfl, rfl, rfl⟩ .here "b" rfl
  exact ⟨_, _, htold, rfl, rfl, hpastes⟩

/-- A text is copied here and announced, the server's user copies something that is not a text, and
then the same text is copied here again: it is passed over, and the server pastes no text. -/
theorem copied_again_passed_over :
    ¬ ∀ h s, Reaches clipboardStep (fun _ _ => True) (.initial .other .other) h s → s.Converged := by
  intro hclaim
  have hstart : Reaches clipboardStep (fun _ _ => True) (.initial .other .other) []
      (.initial .other .other) := .start
  have hreach := Reaches.of_runEvents [.copyHere (.text "a"), .poll true, .deliverToServer,
    .copyThere .other, .deliverToClient true true, .copyHere (.text "a"), .poll true]
    (fun _ _ _ => trivial) hstart rfl
  have hpaste := (hclaim _ _ hreach ⟨rfl, rfl, rfl⟩ .here "a" rfl).2
  exact absurd hpaste (by decide)

end Portix.Rdp
