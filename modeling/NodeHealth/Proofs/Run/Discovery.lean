import NodeHealth.Proofs.Hosts
import NodeHealth.Proofs.Pod.Identities
import NodeHealth.Proofs.Run.Failure

/-!
# Discovering who the node is

The identities of a node are the names that its sources give, one source after another: the host
name, the hosts file, the addresses of the host name, the names of these, and what the request adds.
A hosts file that is not there or not well formed is a source that gives nothing.

* `NameService.mapsBack_iff`: the names of addresses, by the answers of the name service.
* `PodRequest.entries_candidates`: the identities that a pod check starts from, when there are none,
  and that what a request adds comes last.
* `Identities.discover_of_padded`: what blanks around the host name do. The host name itself is
  known without them, but its aliases are looked up with them and not found.
* `Identities.discover_paddedHost`: so a node can lose its aliases.
-/

namespace NodeHealth

namespace NameService

/-! ## The names of addresses -/

/-- What the name service maps addresses back to, in the order of the addresses: for each address
the name that is answered, if there is an answer and it is not an address itself. -/
inductive MapsBack (service : NameService) : List String → List String → Prop
  | nil : MapsBack service [] []
  | named {address name : String} {addresses names : List String}
      (answer : service.nameOf address = some name) (proper : Address.isAddress name = false)
      (rest : MapsBack service addresses names) :
      MapsBack service (address :: addresses) (name :: names)
  | numeric {address shown : String} {addresses names : List String}
      (answer : service.nameOf address = some shown) (isAddress : Address.isAddress shown = true)
      (rest : MapsBack service addresses names) : MapsBack service (address :: addresses) names
  | unanswered {address : String} {addresses names : List String}
      (answer : service.nameOf address = none) (rest : MapsBack service addresses names) :
      MapsBack service (address :: addresses) names

variable {service : NameService} {addresses names : List String}

theorem mapsBack_namesOf (service : NameService) (addresses : List String) :
    service.MapsBack addresses (service.namesOf addresses) := by
  induction addresses with
  | nil => exact .nil
  | cons address addresses ih =>
    unfold namesOf at ih ⊢
    cases answer : service.nameOf address with
    | none =>
      rw [List.filterMap_cons_none answer]
      exact .unanswered answer ih
    | some name =>
      rw [List.filterMap_cons_some answer, List.filter_cons]
      cases kind : Address.isAddress name with
      | false => exact .named answer kind ih
      | true => exact .numeric answer kind ih

theorem mapsBack_iff : service.MapsBack addresses names ↔ service.namesOf addresses = names := by
  constructor
  · intro h
    induction h with
    | nil => rfl
    | named answer proper _ ih => simpa [namesOf, answer, proper] using ih
    | numeric answer isAddress _ ih => simpa [namesOf, answer, isAddress] using ih
    | unanswered answer _ ih => simpa [namesOf, answer] using ih
  · rintro rfl
    exact mapsBack_namesOf service addresses

end NameService

namespace Identities

variable {service : NameService} {hosts hostname : Option String} {name : String}
  {extra : List String}

/-! ## The sources of identities -/

theorem entries_ofHost :
    (ofHost service hosts name).entries =
      given ([name] ++ Hosts.aliases (hosts.getD "") name ++ service.addresses name ++
        service.namesOf (service.addresses name)) := by
  have hempty : empty.entries = given [] := rfl
  exact entries_extend (entries_extend (entries_extend (entries_push hempty name) _) _) _

theorem entries_discover_of_host (h : Text.trim name ≠ "") :
    (discover service hosts (some name) extra).entries =
      given ([name] ++ Hosts.aliases (hosts.getD "") name ++ service.addresses name ++
        service.namesOf (service.addresses name) ++ extra) := by
  have hknown : discover service hosts (some name) extra =
      (ofHost service hosts name).extend extra := by simp [discover, h]
  rw [hknown]
  exact entries_extend entries_ofHost extra

theorem entries_discover_of_no_host (h : ∀ name, hostname = some name → Text.trim name = "") :
    (discover service hosts hostname extra).entries = given extra := by
  have hknown : discover service hosts hostname extra = empty.extend extra := by
    cases hostname with
    | none => rfl
    | some name => simp [discover, h name rfl]
  rw [hknown]
  exact entries_ofList extra

theorem entries_discover_eq_nil_iff :
    (discover service hosts hostname extra).entries = [] ↔
      (∀ name, hostname = some name → Text.trim name = "") ∧
        ∀ text ∈ extra, Text.trim text = "" := by
  by_cases hblank : ∀ name, hostname = some name → Text.trim name = ""
  · rw [entries_discover_of_no_host hblank, given_eq_nil_iff]
    exact (and_iff_right hblank).symm
  · simp only [hblank, false_and, iff_false]
    simp only [not_forall] at hblank
    obtain ⟨name, rfl, hne⟩ := hblank
    rw [entries_discover_of_host hne, given_eq_nil_iff]
    exact fun h => hne (h name (by simp))

/-- What is added to a request comes behind everything else. -/
theorem prefix_entries_discover (more : List String) :
    (discover service hosts hostname extra).entries <+:
      (discover service hosts hostname (extra ++ more)).entries := by
  by_cases hblank : ∀ name, hostname = some name → Text.trim name = ""
  · rw [entries_discover_of_no_host hblank, entries_discover_of_no_host hblank]
    exact prefix_given_append extra more
  · simp only [not_forall] at hblank
    obtain ⟨name, rfl, hne⟩ := hblank
    rw [entries_discover_of_host hne, entries_discover_of_host hne, ← List.append_assoc]
    exact prefix_given_append _ more

/-! ## Blanks around the host name -/

theorem exists_blank_of_padded (h : Text.trim name ≠ name) :
    ∃ c ∈ name.toList, Text.isBlank c = true := by
  by_contra hnone
  have hunblank : ∀ c ∈ name.toList, Text.isBlank c = false :=
    fun c hc => Bool.eq_false_iff.2 fun hblank => hnone ⟨c, hc, hblank⟩
  refine h (String.toList_injective ?_)
  rw [Text.trim, String.toList_ofList, Chars.trim_of_unblank hunblank]

/-- A padded host name is known without the blanks around it, but the hosts file says nothing of
it. -/
theorem discover_of_trim_ne (hlookup : service.addresses name = service.addresses (Text.trim name))
    (h : Text.trim name ≠ name) :
    discover service hosts (some name) extra =
      discover service none (some (Text.trim name)) extra := by
  rw [entries_inj]
  by_cases hblank : Text.trim name = ""
  · have hnone : ∀ x : String, some name = some x → Text.trim x = "" := by
      rintro x ⟨⟩
      exact hblank
    have hnone' : ∀ x : String, some (Text.trim name) = some x → Text.trim x = "" := by
      rintro x ⟨⟩
      rw [Text.trim_trim, hblank]
    rw [entries_discover_of_no_host hnone, entries_discover_of_no_host hnone']
  · have hblank' : Text.trim (Text.trim name) ≠ "" := by rwa [Text.trim_trim]
    have hnothing : Hosts.aliases ((none : Option String).getD "") (Text.trim name) = [] := rfl
    rw [entries_discover_of_host hblank, entries_discover_of_host hblank', hnothing,
      Hosts.aliases_of_blank (exists_blank_of_padded h), hlookup]
    exact given_cons_trim.symm

/-- A hosts file makes no difference exactly if the aliases it adds come first among the other names
anyway. -/
theorem discover_none_eq_iff {host : String} (hhost : Text.trim host = host) (hne : host ≠ "") :
    discover service none (some host) extra = discover service hosts (some host) extra ↔
      (given (Hosts.aliases (hosts.getD "") host)).filter (· ≠ host) <+:
        (given (service.addresses host ++ service.namesOf (service.addresses host) ++
          extra)).filter (· ≠ host) := by
  have hnamed : Text.trim host ≠ "" := by rwa [hhost]
  have hwith : (discover service hosts (some host) extra).entries =
      given (host :: (Hosts.aliases (hosts.getD "") host ++ (service.addresses host ++
        service.namesOf (service.addresses host) ++ extra))) := by
    rw [entries_discover_of_host hnamed]
    simp only [List.append_assoc, List.cons_append, List.nil_append]
  have hwithout : (discover service none (some host) extra).entries =
      given (host :: (service.addresses host ++ service.namesOf (service.addresses host) ++
        extra)) := by
    rw [entries_discover_of_host hnamed]
    rfl
  rw [entries_inj, hwith, hwithout, eq_comm, given_cons_append_eq_iff hhost hne]

/-- Blanks around the host name take the hosts file away: the host is known by its name without
them, by its addresses and their names, but not by its aliases. That makes no difference exactly if
there are no blanks, or no name is left without them, or the aliases come first among the other
names anyway. -/
theorem discover_of_padded (service : NameService) (hosts : Option String) (name : String)
    (extra : List String)
    (hlookup : service.addresses name = service.addresses (Text.trim name)) :
    let host := Text.trim name
    let others := service.addresses host ++ service.namesOf (service.addresses host) ++ extra
    (host ≠ name → discover service hosts (some name) extra =
      discover service none (some host) extra) ∧
    (discover service hosts (some name) extra = discover service hosts (some host) extra ↔
      host = name ∨ host = "" ∨
        (given (Hosts.aliases (hosts.getD "") host)).filter (· ≠ host) <+:
          (given others).filter (· ≠ host)) := by
  intro host others
  refine ⟨discover_of_trim_ne hlookup, ?_⟩
  have hhost : Text.trim host = host := Text.trim_trim name
  by_cases hsame : host = name
  · simp [hsame]
  have hpadded : discover service hosts (some name) extra =
      discover service none (some host) extra := discover_of_trim_ne hlookup hsame
  rw [hpadded]
  by_cases hblank : host = ""
  · have hnone : ∀ x : String, some host = some x → Text.trim x = "" := by
      rintro x ⟨⟩
      rw [hhost, hblank]
    rw [entries_inj, entries_discover_of_no_host hnone, entries_discover_of_no_host hnone]
    simp [hblank]
  · rw [discover_none_eq_iff hhost hblank]
    simp [hsame, hblank, others]

/-- A host name with blanks around it. The character that ends names keeps every name service from
knowing it. -/
def paddedHost : String := " w\x00 "

def paddedHosts : String := "10.0.0.5 worker-5 w\x00\n"

/-- The hosts file speaks of the host, but not under its padded name. -/
theorem discover_paddedHost :
    Text.trim paddedHost = "w\x00" ∧
    discover .silent (some paddedHosts) (some paddedHost) [] = ⟨["w\x00"]⟩ ∧
    discover .silent (some paddedHosts) (some "w\x00") [] =
      ⟨["w\x00", "10.0.0.5", "worker-5"]⟩ := by
  decide +kernel

/-- Given in the request, the names of the hosts file are there all the same. -/
theorem discover_of_padded_paddedHost :
    NameService.silent.addresses paddedHost = NameService.silent.addresses "w\x00" ∧
    discover .silent (some paddedHosts) (some paddedHost) ["10.0.0.5", "worker-5", "x"] =
      discover .silent (some paddedHosts) (some "w\x00") ["10.0.0.5", "worker-5", "x"] ∧
    discover .silent (some paddedHosts) (some paddedHost) ["x", "10.0.0.5", "worker-5"] =
      discover .silent none (some "w\x00") ["x", "10.0.0.5", "worker-5"] := by
  have htrim : Text.trim paddedHost = "w\x00" := by decide +kernel
  refine ⟨rfl, ?_, ?_⟩
  · have hprefix := (discover_of_padded .silent (some paddedHosts) paddedHost
      ["10.0.0.5", "worker-5", "x"] rfl).2.2 (.inr (.inr (by decide +kernel)))
    rwa [htrim] at hprefix
  · have hnone := (discover_of_padded .silent (some paddedHosts) paddedHost
      ["x", "10.0.0.5", "worker-5"] rfl).1 (by decide +kernel)
    rwa [htrim] at hnone

end Identities

/-! ## The identities of a pod check -/

/-- The text of a hosts file. One that cannot be read, or whose bytes are not well formed, says as
much as an empty one. -/
def Machine.hostsText (m : Machine) (path : String) : String :=
  match m.read path with
  | .ok bytes => (Utf8.decode? bytes).getD ""
  | .error _ => ""

namespace PodRequest

open Identities (given)

theorem getD_readText (m : Machine) (path : String) :
    (m.readText path).toOption.getD "" = m.hostsText path := by
  unfold Machine.readText Machine.hostsText
  cases m.read path with
  | error e => rfl
  | ok bytes =>
    show (Machine.textOf bytes).toOption.getD "" = (Utf8.decode? bytes).getD ""
    unfold Machine.textOf
    cases Utf8.decode? bytes <;> rfl

variable {r : PodRequest} {m : Machine} {hostsFile : String} {config : Config} {policy : Policy}

/-- Only a check that looks for nothing says so. -/
theorem run_eq_no_identity_iff :
    r.run m hostsFile config policy = .ok (Verdict.unknown "No candidate identity given.") ↔
      (r.candidates m hostsFile).entries = [] := by
  constructor
  · intro hrun
    by_contra hsome
    obtain ⟨t, text, -, -, hv⟩ :=
      (run_eq_ok_iff (Identities.isEmpty_eq_false_iff.2 hsome)).1 hrun
    exact (Evaluator.decides_judge _ _).status_ne_unknown (congrArg Verdict.status hv.symm)
  · intro hnone
    exact run_of_no_identity (List.isEmpty_iff.2 hnone)

/-- The identities of a pod check are the names that its sources give, in the order of the sources:
the host name, what the hosts file says of it, its addresses, what these map back to, and what the
request adds; without a host name that is not blank, what the request adds. There is no identity
only if all of that is blank; the check is then unknown for this reason, and no other check is. What
more is added to a request leaves the identities in their places. -/
theorem entries_candidates (r : PodRequest) (m : Machine) (hostsFile : String) :
    let ids := r.candidates m hostsFile
    let hostname := r.hostname <|> m.hostname
    (∀ name, hostname = some name → Text.trim name ≠ "" →
      ∃ reverse, m.names.MapsBack (m.names.addresses name) reverse ∧
        ids.entries = given ([name] ++ Hosts.aliases (m.hostsText hostsFile) name ++
          m.names.addresses name ++ reverse ++ r.identities)) ∧
    ((∀ name, hostname = some name → Text.trim name = "") →
      ids.entries = given r.identities) ∧
    (ids.entries = [] ↔ (∀ name, hostname = some name → Text.trim name = "") ∧
      ∀ text ∈ r.identities, Text.trim text = "") ∧
    (∀ config policy, r.run m hostsFile config policy =
      .ok (Verdict.unknown "No candidate identity given.") ↔ ids.entries = []) ∧
    ∀ more, ids.entries <+:
      ({ r with identities := r.identities ++ more }.candidates m hostsFile).entries := by
  intro ids hostname
  refine ⟨?_, ?_, ?_, ?_, ?_⟩
  · intro name hname hne
    refine ⟨_, NameService.mapsBack_namesOf m.names (m.names.addresses name), ?_⟩
    rw [← getD_readText, ← Identities.entries_discover_of_host hne, ← hname]
    rfl
  · exact Identities.entries_discover_of_no_host
  · exact Identities.entries_discover_eq_nil_iff
  · exact fun config policy => run_eq_no_identity_iff
  · exact Identities.prefix_entries_discover

/-- A machine with a hosts file and a name service. -/
def resolvingMachine : Machine where
  hostname := some "w5"
  names :=
    { addresses := fun name => if name = "w5" then ["10.0.0.5", "fd00::5"] else []
      nameOf := fun address => if address = "fd00::5" then some "w5.lan" else some address }
  read path := if path = "hosts" then .ok (Utf8.encode "10.0.0.5 W5 w5.rack # w5.old\n")
    else .error (.os .notFound)
  isFile _ := false
  stdin := []
  execute _ _ _ := .timedOut
  isLive _ := false

theorem entries_candidates_resolvingMachine :
    resolvingMachine.names.MapsBack ["10.0.0.5", "fd00::5"] ["w5.lan"] ∧
    (candidates { identities := [" w5.rack", "x "] } resolvingMachine "hosts").entries =
      given (["w5"] ++ ["10.0.0.5", "W5", "w5.rack"] ++ ["10.0.0.5", "fd00::5"] ++ ["w5.lan"] ++
        [" w5.rack", "x "]) ∧
    (candidates { identities := [" w5.rack"] } resolvingMachine "hosts").entries <+:
      ["w5", "10.0.0.5", "W5", "w5.rack", "fd00::5", "w5.lan", "x"] ∧
    (candidates { hostname := some "\t", identities := ["x", " x"] } resolvingMachine
      "hosts").entries = ["x"] ∧
    run { hostname := some "\t", identities := [" "] } resolvingMachine "hosts" {} .singleton =
      .ok (Verdict.unknown "No candidate identity given.") := by
  have hnames : resolvingMachine.names.MapsBack ["10.0.0.5", "fd00::5"] ["w5.lan"] :=
    .numeric rfl (by decide +kernel) (.named rfl (by decide +kernel) .nil)
  have hall : (candidates { identities := [" w5.rack"] ++ ["x "] } resolvingMachine
      "hosts").entries = ["w5", "10.0.0.5", "W5", "w5.rack", "fd00::5", "w5.lan", "x"] := by
    decide +kernel
  have haliases : Hosts.aliases (resolvingMachine.hostsText "hosts") "w5" =
      ["10.0.0.5", "W5", "w5.rack"] := by decide +kernel
  have haddresses : resolvingMachine.names.addresses "w5" = ["10.0.0.5", "fd00::5"] := rfl
  refine ⟨hnames, ?_, ?_, ?_, ?_⟩
  · obtain ⟨reverse, hreverse, hgiven⟩ := (entries_candidates
      { identities := [" w5.rack", "x "] } resolvingMachine "hosts").1 "w5" rfl (by decide +kernel)
    obtain rfl : reverse = ["w5.lan"] := by
      rw [haddresses] at hreverse
      rw [← NameService.mapsBack_iff.1 hreverse, NameService.mapsBack_iff.1 hnames]
    rwa [haliases, haddresses] at hgiven
  · rw [← hall]
    exact (entries_candidates { identities := [" w5.rack"] } resolvingMachine "hosts").2.2.2.2
      ["x "]
  · have hgiven := (entries_candidates { hostname := some "\t", identities := ["x", " x"] }
      resolvingMachine "hosts").2.1 (by rintro name ⟨⟩; decide +kernel)
    rw [hgiven]
    decide +kernel
  · obtain ⟨-, -, hnone, hrun, -⟩ := entries_candidates
      { hostname := some "\t", identities := [" "] } resolvingMachine "hosts"
    refine (hrun {} .singleton).2 (hnone.2 ⟨?_, ?_⟩)
    · rintro name ⟨⟩
      decide +kernel
    · decide +kernel

end PodRequest

end NodeHealth
