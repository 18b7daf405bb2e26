import Portix.Kibana.KibanaQuery
import Portix.Kubernetes.KubeResources
import Portix.Lib.Proofs.ShellProofs
import Portix.Terminal.TerminalPanel

/-!
# The words of the commands

A shell takes each command that is built for a server apart into its fixed words and operators, and
the values it was built from: each value is one word, or the end of one that starts with a fixed text.
-/

namespace Portix.App

open Lib Shell

open Kubernetes Kibana

open Terminal (shellQuotePath)

theorem shellQuote_eq (value : String) : shellQuote value = quote value := by
  unfold shellQuote quote replaceChar
  apply String.toList_injective
  simp only [String.toList_append, String.toList_ofList]
  rfl

/-- The word of a path: a tilde at its start is for the shell to expand. -/
def pathToken (path : String) : Token :=
  if path = "~" then .fixed "~"
  else match stripPrefix "~/" path with
    | some rest => .fixedValue "~/" rest
    | none => .value path

theorem lex_shellQuotePath (path : String) : lex (shellQuotePath path) = some [pathToken path] := by
  unfold shellQuotePath pathToken
  by_cases htilde : path = "~"
  · rw [if_pos htilde, if_pos htilde]
    decide
  · rw [if_neg htilde, if_neg htilde]
    have hquote : ∀ value, "'" ++ replaceChar '\'' "'\\''" value ++ "'" = quote value := shellQuote_eq
    cases stripPrefix "~/" path with
    | none =>
      show lex (_ ++ _) = _
      rw [hquote, lex_quote]
    | some rest =>
      show lex ("~/" ++ (_ ++ _)) = _
      rw [hquote]
      have htokens : Part.tokens [.text "~/", .value 0] = some [.slot "~/" 0] := by decide
      have hlex := lex_of_template ("~/" ++ quote rest) [rest] _ (by simp [Part.render])
        (by simp [Part.Fits]) htokens
      rw [hlex]
      simp

theorem bare_type : ∀ kind ∈ kubeKinds, Bare kind.type := by decide

theorem isBare_of_isTimeChar {c : Char} (hc : DateTime.isTimeChar c = true) : isBare c = true := by
  unfold DateTime.isTimeChar at hc
  unfold isBare
  simp only [List.mem_cons, List.not_mem_nil, or_false, Bool.or_eq_true, decide_eq_true_eq] at hc ⊢
  rcases hc with hdigit | rfl | rfl | rfl | rfl | rfl | rfl
  · have hrange := isDigit_iff.mp hdigit
    simp only [Bool.not_eq_true', decide_eq_false_iff_not, not_or]
    refine ⟨?_, ?_, ?_, ?_, ?_, ?_, ?_, ?_, ?_, ?_, ?_, ?_, ?_, ?_, ?_, ?_⟩ <;>
      · rintro rfl
        revert hrange
        decide
  all_goals decide

theorem isBare_digits {n : Nat} {c : Char} (hc : c ∈ Nat.toDigits 10 n) : isBare c = true := by
  apply isBare_of_isTimeChar
  rw [DateTime.isTimeChar, isDigit_of_mem_digits hc, Bool.true_or]

theorem isBare_int (n : Int) : ∀ c ∈ (toString n).toList, isBare c = true := by
  intro c hc
  apply isBare_of_isTimeChar
  rcases isDigit_or_eq_of_mem_toString hc with hdigit | rfl
  · rw [DateTime.isTimeChar, hdigit, Bool.true_or]
  · rfl

theorem isBare_intText (n : Int64) : ∀ c ∈ (intText n).toList, isBare c = true := by
  unfold intText intChars
  rw [String.toList_ofList]
  intro c hc
  split_ifs at hc
  · rcases List.mem_cons.mp hc with hsign | hdigits
    · rw [hsign]
      rfl
    · exact isBare_digits hdigits
  · exact isBare_digits hc

theorem isBare_rfc3339 (time : Int) : ∀ c ∈ (rfc3339 time).toList, isBare c = true := by
  intro c hc
  unfold rfc3339 DateTime.toIso8601String at hc
  rw [String.toList_append, String.toList_ofList, String.toList_ofList] at hc
  rcases List.mem_append.mp hc with htime | hend
  · have hmem : c ∈ DateTime.isoChars time := List.takeWhile_subset _ (List.mem_of_mem_filter htime)
    exact isBare_of_isTimeChar (List.all_eq_true.mp (DateTime.all_isoChars time) c hmem)
  · rw [List.mem_singleton.mp hend]
    rfl

theorem bare_sinceArg {since sinceTime : Option Int} {arg : String}
    (harg : sinceArg sinceTime since = some arg) : Bare arg := by
  cases sinceTime with
  | some sinceTime =>
    cases harg
    exact Bare.append (by decide) (isBare_rfc3339 sinceTime)
  | none => cases since with
    | none => cases harg
    | some since =>
      cases harg
      exact Bare.append (Bare.append (by decide) (isBare_int _)) (List.all_eq_true.mp (by decide))

def logsTokens (ns pod : Token) (args : List Token) : List Token :=
  [.fixed "kubectl", .fixed "logs", .fixed "-n", ns, pod, .fixed "--all-containers",
    .fixed "--timestamps"] ++ args ++ [.number "2", .sign ">&", .fixed "1"]

def podListTokens : Option Token → List Token
  | none => [.parameter "pods" false]
  | some pattern => [.subst "", .fixed "printf", .value "%s\\n", .parameter "pods" false, .sign "|",
      .fixed "grep", .fixed "-E", pattern, .closeSubst, .word []]

def kubeLogsTokens (ns : Token) (pod pattern : Option Token) (args : List Token) : List Token :=
  match pod with
  | some pod => logsTokens ns pod args
  | none => [.subst "pods=", .fixed "kubectl", .fixed "get", .fixed "pods", .fixed "-n", ns, .fixed "-o",
      .fixed "name", .closeSubst, .word [], .sign "||", .fixed "exit", .fixed "1", .sign ";", .fixed "for",
      .fixed "p", .fixed "in"] ++ podListTokens pattern ++ [.sign ";", .fixed "do"] ++
      logsTokens ns (.parameter "p" true) args ++ [.sign "||", .fixed "true", .sign ";", .fixed "done"]

theorem map_fill_kubeLogsTokens (values : List String) (ns : Token) (pod pattern : Option Token)
    (args : List Token) : (kubeLogsTokens ns pod pattern args).map (Token.fill values) =
      kubeLogsTokens (ns.fill values) (pod.map (Token.fill values)) (pattern.map (Token.fill values))
        (args.map (Token.fill values)) := by
  cases pod <;> cases pattern <;> simp [kubeLogsTokens, logsTokens, podListTokens]

/-- The value 0 is the namespace, 1 the pod or the pattern, 2 says from when on. -/
def kubeLogsParts (ofPod ofWorkload hasSince : Bool) : List Part :=
  let since := if hasSince then [.text " ", .bare 2] else []
  let args := [.text " --all-containers --timestamps"] ++ since ++ [.text " 2>&1"]
  if ofPod then [.text "kubectl logs -n ", .value 0, .text " ", .value 1] ++ args
  else [.text "pods=$(kubectl get pods -n ", .value 0, .text " -o name) || exit 1; for p in "] ++
    (if ofWorkload then [.text "$(printf '%s\\n' $pods | grep -E ", .value 1, .text ")"]
      else [.text "$pods"]) ++
    [.text "; do kubectl logs -n ", .value 0, .text " \"$p\""] ++ args ++ [.text " || true; done"]

theorem tokens_kubeLogsParts : ∀ ofPod ofWorkload hasSince : Bool,
    Part.tokens (kubeLogsParts ofPod ofWorkload hasSince) = some (kubeLogsTokens (.slot "" 0)
      (if ofPod then some (.slot "" 1) else none) (if ofWorkload then some (.slot "" 1) else none)
      (if hasSince then [.bareSlot 2] else [])) := by
  decide +kernel

theorem lex_kubeLogsCommand (namespaceName : String) (pod : Option String) (workload : Option Workload)
    (since sinceTime : Option Int) :
    lex (kubeLogsCommand namespaceName pod workload since sinceTime) =
      some (kubeLogsTokens (.value namespaceName) (pod.map .value)
        (workload.map fun workload => .value ("^pod/" ++ workloadPattern workload ++ "$"))
        ((sinceArg sinceTime since).toList.map .fixed)) := by
  unfold kubeLogsCommand
  simp only [shellQuote_eq]
  have hbare : ∀ arg, sinceArg sinceTime since = some arg → Bare arg := fun arg => bare_sinceArg
  generalize sinceArg sinceTime since = since at hbare
  let second := match pod, workload with
    | some pod, _ => pod
    | none, some workload => "^pod/" ++ workloadPattern workload ++ "$"
    | none, none => ""
  have hfits : ∀ part ∈ kubeLogsParts pod.isSome workload.isSome since.isSome,
      part.Fits [namespaceName, second, since.getD ""] := by
    cases pod <;> cases workload <;> cases since <;> simp_all [kubeLogsParts, Part.Fits]
  have hlex := fun command hcommand => lex_of_template command _ _ hcommand hfits
    (tokens_kubeLogsParts _ _ _)
  rw [hlex, map_fill_kubeLogsTokens]
  · cases pod <;> cases workload <;> cases since <;> simp [second, kubeLogsTokens, podListTokens]
  · cases pod <;> cases workload <;> cases since <;>
      simp [second, kubeLogsParts, Part.render, valueAt, String.intercalate_cons_cons, String.intercalate_singleton]

def nsTokens (ns : Option Token) : List Token :=
  match ns with
  | none => []
  | some ns => [.fixed "-n", ns]

def itemTokens (verb : String) (kind name : Token) (ns : Option Token) (rest : List Token) : List Token :=
  [.fixed "kubectl", .fixed verb, kind, name] ++ nsTokens ns ++ rest

theorem map_fill_itemTokens (values : List String) (verb : String) (kind name : Token) (ns : Option Token)
    (rest : List Token) : (itemTokens verb kind name ns rest).map (Token.fill values) =
      itemTokens verb (kind.fill values) (name.fill values) (ns.map (Token.fill values))
        (rest.map (Token.fill values)) := by
  cases ns <;> simp [itemTokens, nsTokens]

def nsParts (hasNs : Bool) (index : Nat) : List Part := if hasNs then [.text " -n ", .value index] else []

def nsSlot (hasNs : Bool) (index : Nat) : Option Token := if hasNs then some (.slot "" index) else none

/-- The value 0 is the type, 1 the name, 2 the namespace, 3 a value that needs no quotes. -/
def itemParts (start : String) (hasNs : Bool) (rest : List Part) : List Part :=
  [.text start, .bare 0, .text " ", .value 1] ++ nsParts hasNs 2 ++ rest

theorem render_itemParts (start : String) {kind : KubeKind} {item : JsonMap} (ns : Option String)
    (rest : List Part) (last : String) :
    (itemParts start ns.isSome rest).flatMap (Part.render [kind.type, nameOf item, ns.getD "", last]) =
      (start ++ (kind.type ++ " " ++ shellQuote (nameOf item) ++ nsFlag ns)).toList ++
        rest.flatMap (Part.render [kind.type, nameOf item, ns.getD "", last]) := by
  cases ns <;> simp [itemParts, nsParts, Part.render, valueAt, nsFlag, shellQuote_eq]

theorem lex_item {kind : KubeKind} (hkind : kind ∈ kubeKinds) (item : JsonMap) {verb : String}
    (start : String) (rest : List Part) (words : List Token) (text last : String)
    (htokens : ∀ hasNs, Part.tokens (itemParts start hasNs rest) =
      some (itemTokens verb (.bareSlot 0) (.slot "" 1) (nsSlot hasNs 2) words))
    (hrest : ∀ ns, rest.flatMap (Part.render [kind.type, nameOf item, ns, last]) = text.toList)
    (hfits : ∀ ns, ∀ part ∈ rest, part.Fits [kind.type, nameOf item, ns, last]) (ns : Option String) :
    lex (start ++ (kind.type ++ " " ++ shellQuote (nameOf item) ++ nsFlag ns) ++ text) =
      some (itemTokens verb (.fixed kind.type) (.value (nameOf item)) (ns.map .value)
        (words.map (Token.fill [kind.type, nameOf item, ns.getD "", last]))) := by
  have hall : ∀ part ∈ itemParts start ns.isSome rest, part.Fits [kind.type, nameOf item, ns.getD "", last] := by
    intro part hpart
    unfold itemParts at hpart
    rcases List.mem_append.mp hpart with htarget | hmem
    · have hbare := bare_type kind hkind
      cases ns <;> simp [nsParts] at htarget <;> rcases htarget with rfl | rfl | rfl | rfl | rfl | rfl <;> trivial
    · exact hfits _ part hmem
  have hlex := lex_of_template (_ ++ text) _ _
    (by rw [String.toList_append, render_itemParts, hrest]) hall (htokens ns.isSome)
  rw [hlex, map_fill_itemTokens]
  cases ns <;> simp [nsSlot]

theorem map_lex_target {kind : KubeKind} {item : JsonMap} {command : String → String}
    {words : Option String → List Token}
    (hlex : ∀ ns, lex (command (kind.type ++ " " ++ shellQuote (nameOf item) ++ nsFlag ns)) = some (words ns)) :
    ((target kind item).map command).map lex = (namespaceOf item).map fun ns => some (words ns) := by
  unfold target
  rw [Option.map_map, Option.map_map]
  exact congrArg (Option.map · _) (funext hlex)

section Item

variable {kind : KubeKind} (hkind : kind ∈ kubeKinds) (item : JsonMap)

include hkind

theorem lex_yamlCommand : (yamlCommand kind item).map lex = (namespaceOf item).map fun ns =>
    some (itemTokens "get" (.fixed kind.type) (.value (nameOf item)) (ns.map .value) [.fixed "-o", .fixed "yaml"]) := by
  apply map_lex_target
  exact lex_item hkind item "kubectl get " [.text " -o yaml"] [.fixed "-o", .fixed "yaml"] " -o yaml" ""
    (by decide) (by simp [Part.render]) (by simp [Part.Fits])

theorem lex_describeCommand : (describeCommand kind item).map lex = (namespaceOf item).map fun ns =>
    some (itemTokens "describe" (.fixed kind.type) (.value (nameOf item)) (ns.map .value) []) := by
  apply map_lex_target
  intro ns
  have htokens : ∀ hasNs, Part.tokens (itemParts "kubectl describe " hasNs []) =
      some (itemTokens "describe" (.bareSlot 0) (.slot "" 1) (nsSlot hasNs 2) []) := by decide
  have hlex := lex_item hkind item "kubectl describe " [] [] "" "" htokens (by simp) (by simp) ns
  rw [String.append_empty] at hlex
  exact hlex

theorem lex_deleteCommand : (deleteCommand kind item).map lex = (namespaceOf item).map fun ns =>
    some (itemTokens "delete" (.fixed kind.type) (.value (nameOf item)) (ns.map .value)
      [.fixed "--wait=false"]) := by
  apply map_lex_target
  exact lex_item hkind item "kubectl delete " [.text " --wait=false"] [.fixed "--wait=false"] " --wait=false" ""
    (by decide) (by simp [Part.render]) (by simp [Part.Fits])

theorem lex_itemCommand : (itemCommand kind item).map lex = (namespaceOf item).map fun ns =>
    some (itemTokens "get" (.fixed kind.type) (.value (nameOf item)) (ns.map .value) [.fixed "-o", .fixed "json"]) := by
  apply map_lex_target
  exact lex_item hkind item "kubectl get " [.text " -o json"] [.fixed "-o", .fixed "json"] " -o json" ""
    (by decide) (by simp [Part.render]) (by simp [Part.Fits])

theorem lex_scaleCommand (replicas : Int64) :
    (scaleCommand kind item replicas).map lex = (namespaceOf item).map fun ns =>
      some (itemTokens "scale" (.fixed kind.type) (.value (nameOf item)) (ns.map .value)
        [.fixed ("--replicas=" ++ intText replicas)]) := by
  have hbare : Bare ("--replicas=" ++ intText replicas) :=
    Bare.append (by decide) (isBare_intText replicas)
  apply map_lex_target
  intro ns
  have htokens : ∀ hasNs, Part.tokens (itemParts "kubectl scale " hasNs [.text " ", .bare 3]) =
      some (itemTokens "scale" (.bareSlot 0) (.slot "" 1) (nsSlot hasNs 2) [.bareSlot 3]) := by
    decide
  have hlex := lex_item hkind item "kubectl scale " [.text " ", .bare 3] [.bareSlot 3]
    (" " ++ ("--replicas=" ++ intText replicas)) ("--replicas=" ++ intText replicas) htokens
    (by simp [Part.render, valueAt]) (by simp [Part.Fits, hbare]) ns
  show lex ("kubectl scale " ++ _ ++ " --replicas=" ++ intText replicas) = _
  have hblank : " --replicas=" = " " ++ "--replicas=" := by decide
  rw [String.append_assoc, hblank, @String.append_assoc " ", hlex]
  simp

end Item

def listTokens (namespaced : Bool) (type : Token) (ns : Option Token) : List Token :=
  [.fixed "kubectl", .fixed "get", type] ++
    (if !namespaced then [] else if ns = none then [.fixed "-A"] else nsTokens ns) ++
    [.fixed "-o", .fixed "json"]

def listParts (namespaced hasNs : Bool) : List Part :=
  [.text "kubectl get ", .bare 0] ++
    (if !namespaced then [] else if !hasNs then [.text " -A"] else nsParts true 1) ++ [.text " -o json"]

theorem tokens_listParts : ∀ namespaced hasNs : Bool, Part.tokens (listParts namespaced hasNs) =
    some (listTokens namespaced (.bareSlot 0) (nsSlot hasNs 1)) := by
  decide

theorem lex_listCommand {kind : KubeKind} (hkind : kind ∈ kubeKinds) (namespaceName : Option String) :
    lex (listCommand kind namespaceName) =
      some (listTokens kind.namespaced (.fixed kind.type) (namespaceName.map .value)) := by
  have hfits : ∀ part ∈ listParts kind.namespaced namespaceName.isSome,
      part.Fits [kind.type, namespaceName.getD ""] := by
    have hbare := bare_type kind hkind
    cases kind.namespaced <;> cases namespaceName <;> simp [listParts, nsParts, Part.Fits, hbare]
  have hlex := fun command hcommand => lex_of_template command _ _ hcommand hfits
    (tokens_listParts _ _)
  unfold listCommand
  rw [hlex]
  · cases kind.namespaced <;> cases namespaceName <;> simp [listTokens, nsSlot, nsTokens]
  · cases kind.namespaced <;> cases namespaceName <;>
      simp [listParts, nsParts, Part.render, valueAt, nsFlag, shellQuote_eq]

variable (action : KubeAction)

/-- The words of an action on an item, by its type and name or by its name. -/
def actionTokens (ref name cronJob job : Token) (ns : Option Token) :
    Option (List Token) :=
  match action with
  | .restart => some ([.fixed "kubectl", .fixed "rollout", .fixed "restart", ref] ++ nsTokens ns)
  | .rollback => some ([.fixed "kubectl", .fixed "rollout", .fixed "undo", ref] ++ nsTokens ns)
  | .runNow => some ([.fixed "kubectl", .fixed "create", .fixed "job"] ++ nsTokens ns ++ [cronJob, job])
  | .suspend => some ([.fixed "kubectl", .fixed "patch", .fixed "cronjob", name] ++ nsTokens ns ++
      [.fixed "-p", .value "\x7b\"spec\":\x7b\"suspend\":true\x7d\x7d"])
  | .resume => some ([.fixed "kubectl", .fixed "patch", .fixed "cronjob", name] ++ nsTokens ns ++
      [.fixed "-p", .value "\x7b\"spec\":\x7b\"suspend\":false\x7d\x7d"])
  | .cordon => some [.fixed "kubectl", .fixed "cordon", name]
  | .uncordon => some [.fixed "kubectl", .fixed "uncordon", name]
  | .drain => some [.fixed "kubectl", .fixed "drain", name, .fixed "--ignore-daemonsets",
      .fixed "--delete-emptydir-data", .fixed "--timeout=5m"]
  | .scale | .shell | .logs => none

/-- The value 0 is the type and name, 1 the name, 2 the cron job, 3 the job, 4 the namespace. -/
def actionParts (hasNs : Bool) : Option (List Part) :=
  match action with
  | .restart => some ([.text "kubectl rollout restart ", .value 0] ++ nsParts hasNs 4)
  | .rollback => some ([.text "kubectl rollout undo ", .value 0] ++ nsParts hasNs 4)
  | .runNow => some ([.text "kubectl create job "] ++ nsParts hasNs 4 ++
      [.text " --from=", .value 2, .text " ", .value 3])
  | .suspend => some ([.text "kubectl patch cronjob ", .value 1] ++ nsParts hasNs 4 ++
      [.text " -p '\x7b\"spec\":\x7b\"suspend\":true\x7d\x7d'"])
  | .resume => some ([.text "kubectl patch cronjob ", .value 1] ++ nsParts hasNs 4 ++
      [.text " -p '\x7b\"spec\":\x7b\"suspend\":false\x7d\x7d'"])
  | .cordon => some [.text "kubectl cordon ", .value 1]
  | .uncordon => some [.text "kubectl uncordon ", .value 1]
  | .drain => some [.text "kubectl drain ", .value 1,
      .text " --ignore-daemonsets --delete-emptydir-data --timeout=5m"]
  | .scale | .shell | .logs => none

theorem tokens_actionParts : ∀ hasNs : Bool,
    (actionParts action hasNs).map Part.tokens = (actionTokens action (.slot "" 0) (.slot "" 1)
      (.slot "--from=" 2) (.slot "" 3) (nsSlot hasNs 4)).map some := by
  cases action <;> decide +kernel

theorem map_fill_actionTokens (values : List String) (action : KubeAction) (ref name cronJob job : Token)
    (ns : Option Token) :
    (actionTokens action ref name cronJob job ns).map (List.map (Token.fill values)) =
      actionTokens action (ref.fill values) (name.fill values) (cronJob.fill values) (job.fill values)
        (ns.map (Token.fill values)) := by
  cases action <;> cases ns <;> simp [actionTokens, nsTokens]

theorem map_lex_of_template {command : Option String} (values : List String) {parts : Option (List Part)}
    {tokens : Option (List Token)}
    (hcommand : command.map String.toList = parts.map (List.flatMap (Part.render values)))
    (hfits : ∀ given, parts = some given → ∀ part ∈ given, part.Fits values)
    (htokens : parts.map Part.tokens = tokens.map some) :
    command.map lex = (tokens.map (List.map (Token.fill values))).map some := by
  cases parts with
  | none =>
    rw [Option.map_none, Option.map_eq_none_iff] at hcommand
    rw [Option.map_none, eq_comm, Option.map_eq_none_iff] at htokens
    rw [hcommand, htokens]
    rfl
  | some parts =>
    obtain ⟨text, rfl, htext⟩ := Option.map_eq_some_iff.mp hcommand
    obtain ⟨words, rfl, hwords⟩ := Option.map_eq_some_iff.mp htokens.symm
    exact congrArg some (lex_of_template _ values parts htext (hfits parts rfl) hwords.symm)

theorem lex_actionCommand (kind : KubeKind) (item : JsonMap) (now : Int) :
    (actionCommand action kind item now).map (Option.map lex) = (namespaceOf item).map fun ns =>
      (actionTokens action (.value (kind.type ++ "/" ++ nameOf item)) (.value (nameOf item))
        (.fixedValue "--from=" ("cronjob/" ++ nameOf item)) (.value (manualJobName (nameOf item) now))
        (ns.map .value)).map some := by
  unfold actionCommand
  rw [Option.map_map]
  apply congrArg (Option.map · (namespaceOf item))
  funext ns
  have hfits : ∀ given, actionParts action ns.isSome = some given → ∀ part ∈ given,
      part.Fits [kind.type ++ "/" ++ nameOf item, nameOf item, "cronjob/" ++ nameOf item,
        manualJobName (nameOf item) now, ns.getD ""] := by
    intro given hgiven part hpart
    cases action <;> cases ns <;> cases hgiven <;> simp [nsParts] at hpart <;>
      rcases hpart with rfl | rfl | rfl | rfl | rfl | rfl | rfl <;> trivial
  refine (map_lex_of_template _ ?_ hfits (tokens_actionParts action ns.isSome)).trans ?_
  · cases action <;> cases ns <;>
      simp [actionParts, nsParts, Part.render, nsFlag, shellQuote_eq]
  · rw [map_fill_actionTokens]
    cases ns <;> simp [nsSlot]

def applyTokens (ns : Option Token) : List Token :=
  [.fixed "kubectl", .fixed "apply"] ++ nsTokens ns ++ [.fixed "-f", .fixed "-"]

theorem lex_applyCommand (namespaceName : Option String) : lex (applyCommand namespaceName) =
    some (applyTokens (namespaceName.map .value)) := by
  have htokens : ∀ hasNs, Part.tokens ([.text "kubectl apply"] ++ nsParts hasNs 0 ++ [.text " -f -"]) =
      some (applyTokens (nsSlot hasNs 0)) := by decide
  have hlex := fun command hcommand => lex_of_template command [namespaceName.getD ""] _ hcommand
    (by cases namespaceName <;> simp [nsParts, Part.Fits]) (htokens namespaceName.isSome)
  unfold applyCommand
  rw [hlex]
  · cases namespaceName <;> simp [applyTokens, nsSlot, nsTokens]
  · cases namespaceName <;> simp [nsParts, Part.render, nsFlag, shellQuote_eq]

def shellTokens (ns pod : Token) (container : Option Token) : List Token :=
  [.fixed "kubectl", .fixed "exec", .fixed "-it", .fixed "-n", ns, pod] ++
    (match container with
      | none => []
      | some container => [.fixed "-c", container]) ++
    [.fixed "--", .fixed "sh", .fixed "-c",
      .value "command -v bash >/dev/null && exec bash || exec sh"]

def shellParts (hasContainer : Bool) : List Part :=
  [.text "kubectl exec -it -n ", .value 0, .text " ", .value 1] ++
    (if hasContainer then [.text " -c ", .value 2] else []) ++
    [.text " -- sh -c 'command -v bash >/dev/null && exec bash || exec sh'"]

theorem lex_shellCommand (namespaceName pod : String) (container : Option String) :
    lex (shellCommand namespaceName pod container) =
      some (shellTokens (.value namespaceName) (.value pod) (container.map .value)) := by
  have htokens : ∀ hasContainer, Part.tokens (shellParts hasContainer) = some (shellTokens (.slot "" 0)
      (.slot "" 1) (if hasContainer then some (.slot "" 2) else none)) := by decide +kernel
  have hlex := fun command hcommand => lex_of_template command [namespaceName, pod, container.getD ""] _ hcommand
    (by cases container <;> simp [shellParts, Part.Fits]) (htokens container.isSome)
  unfold shellCommand
  rw [hlex]
  · cases container <;> simp [shellTokens]
  · cases container <;> simp [shellParts, Part.render, shellQuote_eq]

theorem lex_kibanaSearchCommand (baseUrl : String) (search : KibanaSearch) :
    lex (kibanaSearchCommand baseUrl search) = some [.fixed "curl", .fixed "-sS", .fixed "--netrc-optional",
      .fixed "-X", .fixed "POST", .fixed "-H", .value "Content-Type: application/json",
      .value (base baseUrl ++ "/" ++ searchIndex search.index ++ "/_search"), .fixed "-d",
      .value (kibanaSearchBody search)] := by
  have htokens : Part.tokens
      [.text "curl -sS --netrc-optional -X POST -H 'Content-Type: application/json' ", .value 0,
        .text " -d ", .value 1] = some [.fixed "curl", .fixed "-sS", .fixed "--netrc-optional", .fixed "-X",
      .fixed "POST", .fixed "-H", .value "Content-Type: application/json", .slot "" 0, .fixed "-d",
      .slot "" 1] := by decide +kernel
  have hlex := fun command hcommand => lex_of_template command
    [base baseUrl ++ "/" ++ searchIndex search.index ++ "/_search", kibanaSearchBody search] _ hcommand
    (by simp [Part.Fits]) htokens
  unfold kibanaSearchCommand
  rw [hlex]
  · simp
  · simp [Part.render, shellQuote_eq]

def noItemsTokens : List Token := [.fixed "echo", .value "\x7b\"items\":[]\x7d"]

def separatorTokens : List Token := [.sign "&&", .fixed "echo", .value kubeSeparator, .sign "&&"]

def podsTokens (kind : KubeKind) (nodeField : Token) (ns selector : Option Token) : List Token :=
  if kind.type = "nodes" then
    [.fixed "kubectl", .fixed "get", .fixed "pods", .fixed "-A", .fixed "--field-selector", nodeField,
      .fixed "-o", .fixed "json"]
  else match selector with
    | none => noItemsTokens
    | some selector =>
      if kind.ownsPods ∨ kind.type = "services" then
        [.fixed "kubectl", .fixed "get", .fixed "pods"] ++ nsTokens ns ++
          [.fixed "-l", selector, .fixed "-o", .fixed "json"]
      else noItemsTokens

def detailTokens (kind : KubeKind) (type name nodeField eventField : Token) (ns selector : Option Token) :
    List Token :=
  itemTokens "get" type name ns [.fixed "-o", .fixed "json"] ++ separatorTokens ++
    podsTokens kind nodeField ns selector ++ separatorTokens ++
    ([.fixed "kubectl", .fixed "get", .fixed "events"] ++
      (if kind.namespaced then nsTokens ns else [.fixed "-A"]) ++
      [.fixed "--field-selector", eventField, .fixed "-o", .fixed "json"]) ++ separatorTokens ++
    (if kind.ownsPods then
      [.fixed "kubectl", .fixed "get", .fixed "services"] ++ nsTokens ns ++ [.fixed "-o", .fixed "json"]
      else noItemsTokens)

theorem map_fill_detailTokens (values : List String) (kind : KubeKind)
    (type name nodeField eventField : Token) (ns selector : Option Token) :
    (detailTokens kind type name nodeField eventField ns selector).map (Token.fill values) =
      detailTokens kind (type.fill values) (name.fill values) (nodeField.fill values)
        (eventField.fill values) (ns.map (Token.fill values)) (selector.map (Token.fill values)) := by
  have hns : (nsTokens ns).map (Token.fill values) = nsTokens (ns.map (Token.fill values)) := by
    cases ns <;> simp [nsTokens]
  have hpods : (podsTokens kind nodeField ns selector).map (Token.fill values) =
      podsTokens kind (nodeField.fill values) (ns.map (Token.fill values))
        (selector.map (Token.fill values)) := by
    cases selector <;> unfold podsTokens <;> split_ifs <;> simp [noItemsTokens, *]
  unfold detailTokens
  simp only [List.map_append, map_fill_itemTokens, hpods]
  split_ifs <;> simp [separatorTokens, noItemsTokens, hns]

def noItemsPart : Part := .text "echo '\x7b\"items\":[]\x7d'"

def podsParts (kind : KubeKind) (hasNs hasSelector : Bool) : List Part :=
  if kind.type = "nodes" then [.text "kubectl get pods -A --field-selector ", .value 3, .text " -o json"]
  else if hasSelector then
    if kind.ownsPods ∨ kind.type = "services" then
      [.text "kubectl get pods"] ++ nsParts hasNs 2 ++ [.text " -l ", .value 4, .text " -o json"]
    else [noItemsPart]
  else [noItemsPart]

def eventsParts (kind : KubeKind) (hasNs : Bool) : List Part :=
  [.text "kubectl get events"] ++ (if kind.namespaced then nsParts hasNs 2 else [.text " -A"]) ++
    [.text " --field-selector ", .value 5, .text " -o json"]

def servicesParts (kind : KubeKind) (hasNs : Bool) : List Part :=
  if kind.ownsPods then [.text "kubectl get services"] ++ nsParts hasNs 2 ++ [.text " -o json"]
  else [noItemsPart]

def separatorPart : Part := .text " && echo '---portix---' && "

/-- The value 0 is the type, 1 the name, 2 the namespace, 3 the field of a node, 4 the selector, 5 the
field of events. -/
def detailParts (kind : KubeKind) (hasNs hasSelector : Bool) : List Part :=
  itemParts "kubectl get " hasNs [.text " -o json"] ++ separatorPart :: podsParts kind hasNs hasSelector ++
    separatorPart :: eventsParts kind hasNs ++ separatorPart :: servicesParts kind hasNs

theorem tokens_detailParts : ∀ kind ∈ kubeKinds, ∀ hasNs hasSelector : Bool,
    Part.tokens (detailParts kind hasNs hasSelector) = some (detailTokens kind (.bareSlot 0) (.slot "" 1)
      (.slot "" 3) (.slot "" 5) (nsSlot hasNs 2) (if hasSelector then some (.slot "" 4) else none)) := by
  decide +kernel

theorem fits_detailParts {kind : KubeKind} (hkind : kind ∈ kubeKinds) (hasNs hasSelector : Bool)
    (values : List String) : ∀ part ∈ detailParts kind hasNs hasSelector, part.Fits (kind.type :: values) := by
  have hbare := bare_type kind hkind
  unfold detailParts itemParts podsParts eventsParts servicesParts separatorPart noItemsPart
  simp only [List.forall_mem_append, List.forall_mem_cons]
  cases hasNs <;> split_ifs <;> simp [nsParts, Part.Fits, hbare]

section Render

variable (values : List String)

theorem render_nsParts (ns : Option String) (index : Nat) (hns : values.getD index "" = ns.getD "") :
    (nsParts ns.isSome index).flatMap (Part.render values) = (nsFlag ns).toList := by
  cases ns with
  | none => rfl
  | some ns =>
    show " -n ".toList ++ ((quote (values.getD index "")).toList ++ []) = (" -n " ++ shellQuote ns).toList
    rw [shellQuote_eq, String.toList_append, hns, List.append_nil]
    rfl

theorem render_podsParts (kind : KubeKind) (ns selector : Option String) (name : String)
    (hns : values.getD 2 "" = ns.getD "") (hnode : values.getD 3 "" = "spec.nodeName=" ++ name)
    (hselector : values.getD 4 "" = selector.getD "") :
    (podsParts kind ns.isSome selector.isSome).flatMap (Part.render values) =
      (podsOfDetail kind name ns selector).toList := by
  have hflag := render_nsParts values ns 2 hns
  unfold podsParts podsOfDetail noItemsPart noItems
  cases selector with
  | none => split_ifs <;> simp_all [Part.render, shellQuote_eq]
  | some selector =>
    rw [Option.getD_some] at hselector
    split_ifs <;> simp_all [Part.render, shellQuote_eq]

theorem render_eventsParts (kind : KubeKind) (ns : Option String) (name : String)
    (hns : values.getD 2 "" = ns.getD "") (hevent : values.getD 5 "" = "involvedObject.name=" ++ name) :
    (eventsParts kind ns.isSome).flatMap (Part.render values) =
      ("kubectl get events" ++ (if kind.namespaced then nsFlag ns else " -A") ++ " --field-selector " ++
        shellQuote ("involvedObject.name=" ++ name) ++ " -o json").toList := by
  have hflag := render_nsParts values ns 2 hns
  unfold eventsParts
  split_ifs <;> simp_all [Part.render, shellQuote_eq]

theorem render_servicesParts (kind : KubeKind) (ns : Option String) (hns : values.getD 2 "" = ns.getD "") :
    (servicesParts kind ns.isSome).flatMap (Part.render values) =
      (if kind.ownsPods then "kubectl get services" ++ nsFlag ns ++ " -o json" else noItems).toList := by
  have hflag := render_nsParts values ns 2 hns
  unfold servicesParts noItemsPart noItems
  split_ifs <;> simp_all [Part.render]

end Render

theorem lex_detailCommand {kind : KubeKind} (hkind : kind ∈ kubeKinds) (item : JsonMap) :
    (detailCommand kind item).map lex = (namespaceOf item).bind fun ns => (podSelector item).map fun selector =>
      some (detailTokens kind (.fixed kind.type) (.value (nameOf item))
        (.value ("spec.nodeName=" ++ nameOf item)) (.value ("involvedObject.name=" ++ nameOf item))
        (ns.map .value) (selector.map .value)) := by
  unfold detailCommand target
  cases hns : namespaceOf item with
  | none => rfl
  | some ns => cases hselector : podSelector item with
    | none => rfl
    | some selector =>
      refine congrArg some ?_
      let values := [kind.type, nameOf item, ns.getD "", "spec.nodeName=" ++ nameOf item, selector.getD "",
        "involvedObject.name=" ++ nameOf item]
      have hlex := fun command hcommand => lex_of_template command values _ hcommand
        (fits_detailParts hkind ns.isSome selector.isSome _)
        (tokens_detailParts kind hkind ns.isSome selector.isSome)
      rw [hlex, map_fill_detailTokens]
      · cases ns <;> cases selector <;> simp [nsSlot, values]
      · have hseparator : " && echo '" ++ kubeSeparator ++ "' && " = " && echo '---portix---' && " := by
          decide
        have hitem := render_nsParts values ns 2 rfl
        unfold detailParts itemParts
        simp only [List.flatMap_append, List.flatMap_cons, String.intercalate_cons_cons,
          String.intercalate_singleton, String.toList_append, hseparator, hitem,
          render_podsParts values kind ns selector (nameOf item) rfl rfl rfl,
          render_eventsParts values kind ns (nameOf item) rfl rfl, render_servicesParts values kind ns rfl]
        simp only [Part.render, separatorPart, shellQuote_eq, List.append_assoc, List.flatMap_nil,
          List.nil_append, valueAt]
        rfl

/-- No value leaves its word: each command has its fixed words and operators, and each value it is built
from is one word of it, or the end of one. -/
theorem values_stay_in_words :
    (∀ value, lex (shellQuote value) = some [.value value]) ∧
    (∀ path, lex (shellQuotePath path) = some [pathToken path]) ∧
    (∀ (namespaceName : String) (pod : Option String) (workload : Option Workload)
      (since sinceTime : Option Int), lex (kubeLogsCommand namespaceName pod workload since sinceTime) =
        some (kubeLogsTokens (.value namespaceName) (pod.map .value)
          (workload.map fun workload => .value ("^pod/" ++ workloadPattern workload ++ "$"))
          ((sinceArg sinceTime since).toList.map .fixed))) ∧
    (∀ kind ∈ kubeKinds,
      (∀ namespaceName : Option String, lex (listCommand kind namespaceName) =
        some (listTokens kind.namespaced (.fixed kind.type) (namespaceName.map .value))) ∧
      ∀ item : JsonMap,
        let type := Token.fixed kind.type
        let name := Token.value (nameOf item)
        (yamlCommand kind item).map lex = (namespaceOf item).map (fun ns =>
          some (itemTokens "get" type name (ns.map .value) [.fixed "-o", .fixed "yaml"])) ∧
        (describeCommand kind item).map lex = (namespaceOf item).map (fun ns =>
          some (itemTokens "describe" type name (ns.map .value) [])) ∧
        (deleteCommand kind item).map lex = (namespaceOf item).map (fun ns =>
          some (itemTokens "delete" type name (ns.map .value) [.fixed "--wait=false"])) ∧
        (itemCommand kind item).map lex = (namespaceOf item).map (fun ns =>
          some (itemTokens "get" type name (ns.map .value) [.fixed "-o", .fixed "json"])) ∧
        (∀ replicas, (scaleCommand kind item replicas).map lex = (namespaceOf item).map (fun ns =>
          some (itemTokens "scale" type name (ns.map .value) [.fixed ("--replicas=" ++ intText replicas)]))) ∧
        (∀ action now, (actionCommand action kind item now).map (Option.map lex) =
          (namespaceOf item).map fun ns =>
            (actionTokens action (.value (kind.type ++ "/" ++ nameOf item)) name
              (.fixedValue "--from=" ("cronjob/" ++ nameOf item)) (.value (manualJobName (nameOf item) now))
              (ns.map .value)).map some) ∧
        (detailCommand kind item).map lex = (namespaceOf item).bind (fun ns =>
          (podSelector item).map fun selector =>
            some (detailTokens kind type name (.value ("spec.nodeName=" ++ nameOf item))
              (.value ("involvedObject.name=" ++ nameOf item)) (ns.map .value) (selector.map .value)))) ∧
    (∀ (namespaceName pod : String) (container : Option String),
      lex (shellCommand namespaceName pod container) =
        some (shellTokens (.value namespaceName) (.value pod) (container.map .value))) ∧
    (∀ namespaceName : Option String, lex (applyCommand namespaceName) =
      some (applyTokens (namespaceName.map .value))) ∧
    ∀ (baseUrl : String) (search : KibanaSearch), lex (kibanaSearchCommand baseUrl search) =
      some [.fixed "curl", .fixed "-sS", .fixed "--netrc-optional", .fixed "-X", .fixed "POST", .fixed "-H",
        .value "Content-Type: application/json",
        .value (base baseUrl ++ "/" ++ searchIndex search.index ++ "/_search"), .fixed "-d",
        .value (kibanaSearchBody search)] := by
  refine ⟨fun value => ?_, lex_shellQuotePath, lex_kubeLogsCommand, fun kind hkind =>
    ⟨lex_listCommand hkind, fun item => ⟨lex_yamlCommand hkind item, lex_describeCommand hkind item,
      lex_deleteCommand hkind item, lex_itemCommand hkind item, lex_scaleCommand hkind item,
      fun action now => lex_actionCommand action kind item now, lex_detailCommand hkind item⟩⟩,
    lex_shellCommand, lex_applyCommand, lex_kibanaSearchCommand⟩
  rw [shellQuote_eq, lex_quote]

/-- A namespace with a quote and a semicolon in it is one word. -/
theorem values_stay_in_words_pods : lex (listCommand { type := "pods" } (some "it's; rm")) =
    some [.fixed "kubectl", .fixed "get", .fixed "pods", .fixed "-n", .value "it's; rm", .fixed "-o",
      .fixed "json"] :=
  (values_stay_in_words.2.2.2.1 _ (by decide)).1 _

end Portix.App
