import ClipBridge.Lib.FirstOccurrences
import ClipBridge.Relay.Hub

/-!
# The normal form of an advertisement

A client may send anything in a `LanAdvertise`. What `sanitize_lan_advertise` in
`relay/src/hub.rs` keeps of it has a normal form, and is kept unchanged from then on.

* `Respells` — an address is read back from its own text.
* `sanitizeCandidates_eq` — the candidates are the first ones that are acceptable, each once, in
  the spelling that `Display` gives them.
* `NormalForm` — few, unique and private candidates in that spelling, and networks of these alone.
* `sanitize_normalForm`, `sanitize_of_normalForm` — what comes out is in normal form, and what is in
  normal form stays.
-/

namespace ClipBridge.Relay

open SocketAddrText (parse display)

section

variable [SocketAddrText]

/-- `Display` and `FromStr` go together: an address that was read is read back from its text. -/
def Respells : Prop := ∀ s addr, parse s = some addr → parse (display addr) = some addr

/-- The spelling in which a candidate is kept, if it is. -/
def relaySpelling (candidate : String) : Option String :=
  (parse candidate).bind fun addr =>
    if isRelayLanCandidateIp addr.ip then some (display addr) else none

/-- Everything that a later stage relies on. -/
structure NormalForm (candidates : List String) (networks : List LanCandidate) : Prop where
  length : candidates.length ≤ maxLanCandidates
  nodup : candidates.Nodup
  canonical : ∀ s ∈ candidates,
    ∃ addr, parse s = some addr ∧ isRelayLanCandidateIp addr.ip = true ∧ display addr = s
  networks_length : networks.length ≤ maxLanCandidates
  networks_nodup : (networks.map (·.addr)).Nodup
  networks_accepted : ∀ n ∈ networks, n.addr ∈ candidates ∧
    ∃ addr, parse n.addr = some addr ∧ validPrefixLen addr.ip n.prefixLen = true

/-! ## Candidates -/

section

variable {out rest : List String} {candidate : String}

theorem sanitizeCandidates_full (h : maxLanCandidates ≤ out.length) :
    sanitizeCandidates out rest = out := by
  cases rest with
  | nil => rfl
  | cons candidate rest => rw [sanitizeCandidates, if_pos h]

/-- What is not acceptable is skipped, and so is what has been accepted. -/
theorem sanitizeCandidates_skip (h : ∀ s, relaySpelling candidate = some s → s ∈ out) :
    sanitizeCandidates out (candidate :: rest) = sanitizeCandidates out rest := by
  by_cases hfull : maxLanCandidates ≤ out.length
  · rw [sanitizeCandidates_full hfull, sanitizeCandidates_full hfull]
  · rw [sanitizeCandidates, if_neg hfull]
    cases hparse : parse candidate with
    | none => rfl
    | some addr =>
        have hrefused :
            (isRelayLanCandidateIp addr.ip && !out.contains (display addr)) = false := by
          cases hip : isRelayLanCandidateIp addr.ip with
          | false => rfl
          | true => simpa using h (display addr) (by simp [relaySpelling, hparse, hip])
        show (if (isRelayLanCandidateIp addr.ip && !out.contains (display addr)) = true then _
          else _) = _
        rw [hrefused, if_neg Bool.false_ne_true]

theorem sanitizeCandidates_take {s : String} (h : relaySpelling candidate = some s) (hs : s ∉ out)
    (hfull : ¬ maxLanCandidates ≤ out.length) :
    sanitizeCandidates out (candidate :: rest) = sanitizeCandidates (out ++ [s]) rest := by
  rw [sanitizeCandidates, if_neg hfull]
  cases hparse : parse candidate with
  | none => simp [relaySpelling, hparse] at h
  | some addr =>
      have hip : isRelayLanCandidateIp addr.ip = true ∧ display addr = s := by
        simpa [relaySpelling, hparse] using h
      have haccepted : (isRelayLanCandidateIp addr.ip && !out.contains (display addr)) = true := by
        simpa [hip.1, hip.2] using hs
      show (if (isRelayLanCandidateIp addr.ip && !out.contains (display addr)) = true then _
        else _) = _
      rw [if_pos haccepted, hip.2]

end

/-- The loop goes on with the acceptable candidates that are new, until there are enough. -/
theorem sanitizeCandidates_append {out : List String} (hout : out.length ≤ maxLanCandidates)
    (rest : List String) :
    sanitizeCandidates out rest =
      (out ++ ((rest.filterMap relaySpelling).filter (· ∉ out)).eraseDups).take
        maxLanCandidates := by
  induction rest generalizing out with
  | nil => simp [sanitizeCandidates, List.take_of_length_le hout]
  | cons candidate rest ih =>
      cases hspelling : relaySpelling candidate with
      | none =>
          rw [sanitizeCandidates_skip (by simp [hspelling]), ih hout, List.filterMap_cons,
            hspelling]
      | some s =>
          rw [List.filterMap_cons, hspelling]
          by_cases hs : s ∈ out
          · have hskip : sanitizeCandidates out (candidate :: rest) = sanitizeCandidates out rest :=
              sanitizeCandidates_skip fun s' h => by
                rw [hspelling, Option.some.injEq] at h
                exact h ▸ hs
            rw [hskip, ih hout, List.filter_cons_of_neg (by simpa using hs)]
          · by_cases hfull : maxLanCandidates ≤ out.length
            · rw [sanitizeCandidates_full hfull, List.take_append_of_le_length hfull,
                List.take_of_length_le hout]
            · have hlength : (out ++ [s]).length ≤ maxLanCandidates := by
                rw [List.length_append, List.length_singleton]
                omega
              rw [sanitizeCandidates_take hspelling hs hfull, ih hlength,
                List.filter_cons_of_pos (by simpa using hs), List.eraseDups_cons,
                List.filter_filter, List.append_assoc]
              have hnew :
                  (rest.filterMap relaySpelling).filter (fun a => !a == s && decide (a ∉ out)) =
                    (rest.filterMap relaySpelling).filter (· ∉ out ++ [s]) := by
                refine List.filter_congr fun a _ => ?_
                by_cases has : a = s <;> simp [has]
              rw [hnew]
              rfl

/-- **The candidates are the first acceptable ones, in the order in which they occur first.** -/
theorem sanitizeCandidates_eq (candidates : List String) :
    sanitizeCandidates [] candidates =
      (candidates.filterMap relaySpelling).eraseDups.take maxLanCandidates := by
  rw [sanitizeCandidates_append (Nat.zero_le _)]
  simp

/-- What is spelt out is a private address in canonical spelling. -/
theorem canonical_of_relaySpelling (htext : Respells) {candidate s : String}
    (h : relaySpelling candidate = some s) :
    ∃ addr, parse s = some addr ∧ isRelayLanCandidateIp addr.ip = true ∧ display addr = s := by
  obtain ⟨addr, hparse, hs⟩ := Option.bind_eq_some_iff.1 h
  split at hs
  · rename_i hip
    rw [Option.some.injEq] at hs
    exact ⟨addr, hs ▸ htext candidate addr hparse, hip, hs⟩
  · cases hs

/-! ## Networks -/

/-- What every new network of an accepted address keeps, the loop keeps. -/
theorem sanitizeNetworks_keeps {accepted : List String} {P : List LanCandidate → Prop}
    (hpush : ∀ out network addr, out.length < maxLanCandidates → parse network = some addr →
      display addr ∈ accepted → ∀ prefixLen, validPrefixLen addr.ip prefixLen = true →
      display addr ∉ out.map (·.addr) → P out → P (out ++ [⟨display addr, prefixLen⟩]))
    {out : List LanCandidate} (hout : P out) (networks : List LanCandidate) :
    P (sanitizeNetworks accepted out networks) := by
  induction networks generalizing out with
  | nil => exact hout
  | cons network rest ih =>
      unfold sanitizeNetworks
      dsimp only
      split
      · exact hout
      · rename_i hroom
        split
        · exact ih hout
        · rename_i addr hparse
          split
          · rename_i hkept
            simp only [Bool.and_eq_true, Bool.not_eq_true', List.contains_eq_mem,
              decide_eq_true_eq, decide_eq_false_iff_not] at hkept
            obtain ⟨⟨hmem, hvalid⟩, hnew⟩ := hkept
            exact ih (hpush out _ addr (Nat.not_le.1 hroom) hparse hmem _ hvalid hnew hout)
          · exact ih hout

theorem sanitizeNetworks_mem_accepted {accepted : List String} (networks : List LanCandidate) :
    ∀ n ∈ sanitizeNetworks accepted [] networks, n.addr ∈ accepted := by
  refine sanitizeNetworks_keeps (P := fun out => ∀ n ∈ out, n.addr ∈ accepted) ?_ (by simp) networks
  intro out network addr _ _ hmem prefixLen _ _ hout n hn
  rcases List.mem_append.1 hn with hn | hn
  · exact hout n hn
  · rw [List.mem_singleton.1 hn]
    exact hmem

theorem length_sanitizeNetworks_le {accepted : List String} (networks : List LanCandidate) :
    (sanitizeNetworks accepted [] networks).length ≤ maxLanCandidates := by
  refine sanitizeNetworks_keeps (P := (·.length ≤ maxLanCandidates)) ?_ (Nat.zero_le _) networks
  intro out network addr hroom _ _ prefixLen _ _ _
  rw [List.length_append, List.length_singleton]
  exact hroom

theorem nodup_sanitizeNetworks {accepted : List String} (networks : List LanCandidate) :
    ((sanitizeNetworks accepted [] networks).map (·.addr)).Nodup := by
  have hnil : (([] : List LanCandidate).map (·.addr)).Nodup := List.nodup_nil
  refine sanitizeNetworks_keeps (P := fun out => (out.map (·.addr)).Nodup) ?_ hnil networks
  intro out network addr _ _ _ prefixLen _ hnew hout
  rw [List.map_append]
  exact hout.append (List.nodup_singleton _) (by simpa using hnew)

/-- A network is kept in the canonical spelling of its address, with a valid prefix. -/
theorem sanitizeNetworks_valid (htext : Respells) {accepted : List String}
    (networks : List LanCandidate) :
    ∀ n ∈ sanitizeNetworks accepted [] networks,
      ∃ addr, parse n.addr = some addr ∧ validPrefixLen addr.ip n.prefixLen = true := by
  refine sanitizeNetworks_keeps (P := fun out => ∀ n ∈ out, ∃ addr, parse n.addr = some addr ∧
    validPrefixLen addr.ip n.prefixLen = true) ?_ (by simp) networks
  intro out network addr _ hparse _ prefixLen hvalid _ hout n hn
  rcases List.mem_append.1 hn with hn | hn
  · exact hout n hn
  · rw [List.mem_singleton.1 hn]
    exact ⟨addr, htext _ _ hparse, hvalid⟩

/-! ## Normal form -/

theorem normalForm_sanitize (htext : Respells) (candidates : List String)
    (networks : List LanCandidate) :
    NormalForm (sanitizeLanAdvertise candidates networks).1
      (sanitizeLanAdvertise candidates networks).2 := by
  have heq := sanitizeCandidates_eq candidates
  refine ⟨?_, ?_, fun s hs => ?_, length_sanitizeNetworks_le networks,
    nodup_sanitizeNetworks networks, fun n hn => ⟨sanitizeNetworks_mem_accepted networks n hn,
      sanitizeNetworks_valid htext networks n hn⟩⟩
  · show (sanitizeCandidates [] candidates).length ≤ _
    rw [heq]
    exact List.length_take_le _ _
  · show (sanitizeCandidates [] candidates).Nodup
    rw [heq]
    exact (List.nodup_eraseDups _).sublist (List.take_sublist _ _)
  · have hs' : s ∈ sanitizeCandidates [] candidates := hs
    rw [heq] at hs'
    obtain ⟨candidate, -, hspelling⟩ :=
      List.mem_filterMap.1 (List.mem_eraseDups.1 (List.mem_of_mem_take hs'))
    exact canonical_of_relaySpelling htext hspelling

/-- Candidates in normal form are taken one after the other. -/
theorem sanitizeCandidates_fixed {out rest : List String}
    (hlength : (out ++ rest).length ≤ maxLanCandidates) (hnodup : (out ++ rest).Nodup)
    (hcanonical : ∀ s ∈ rest, relaySpelling s = some s) :
    sanitizeCandidates out rest = out ++ rest := by
  induction rest generalizing out with
  | nil => exact (List.append_nil out).symm
  | cons s rest ih =>
      have hnew : s ∉ out := by
        intro hs
        exact (List.disjoint_of_nodup_append hnodup) hs List.mem_cons_self
      have hroom : ¬ maxLanCandidates ≤ out.length := by
        rw [List.length_append, List.length_cons] at hlength
        omega
      have hassoc : out ++ s :: rest = (out ++ [s]) ++ rest := by simp
      rw [sanitizeCandidates_take (hcanonical s List.mem_cons_self) hnew hroom, hassoc]
      rw [hassoc] at hlength hnodup
      exact ih hlength hnodup fun s' hs' => hcanonical s' (List.mem_cons_of_mem _ hs')

theorem sanitizeNetworks_fixed {accepted : List String} {out rest : List LanCandidate}
    (hlength : (out ++ rest).length ≤ maxLanCandidates)
    (hnodup : ((out ++ rest).map (·.addr)).Nodup)
    (hkept : ∀ n ∈ rest, n.addr ∈ accepted ∧ ∃ addr, parse n.addr = some addr ∧
      display addr = n.addr ∧ validPrefixLen addr.ip n.prefixLen = true) :
    sanitizeNetworks accepted out rest = out ++ rest := by
  induction rest generalizing out with
  | nil => exact (List.append_nil out).symm
  | cons n rest ih =>
      obtain ⟨hmem, addr, hparse, hdisplay, hvalid⟩ := hkept n List.mem_cons_self
      have hnew : n.addr ∉ out.map (·.addr) := by
        intro hn
        rw [List.map_append] at hnodup
        exact (List.disjoint_of_nodup_append hnodup) hn List.mem_cons_self
      have hroom : ¬ maxLanCandidates ≤ out.length := by
        rw [List.length_append, List.length_cons] at hlength
        omega
      have hassoc : out ++ n :: rest = (out ++ [n]) ++ rest := by simp
      rw [sanitizeNetworks, if_neg hroom, hparse]
      dsimp only
      have haccepted : (accepted.contains n.addr && true &&
          !(out.map (·.addr)).contains n.addr) = true := by
        simpa [hmem] using hnew
      rw [hdisplay, hvalid, if_pos haccepted, hassoc]
      rw [hassoc] at hlength hnodup
      exact ih hlength hnodup fun n' hn' => hkept n' (List.mem_cons_of_mem _ hn')

/-- What is in normal form stays as it is. -/
theorem sanitize_of_normalForm {candidates : List String} {networks : List LanCandidate}
    (h : NormalForm candidates networks) :
    sanitizeLanAdvertise candidates networks = (candidates, networks) := by
  have hcandidates : sanitizeCandidates [] candidates = candidates := by
    refine sanitizeCandidates_fixed h.length h.nodup fun s hs => ?_
    obtain ⟨addr, hparse, hip, hdisplay⟩ := h.canonical s hs
    simp [relaySpelling, hparse, hip, hdisplay]
  have hnetworks : sanitizeNetworks candidates [] networks = networks := by
    refine sanitizeNetworks_fixed h.networks_length h.networks_nodup fun n hn => ?_
    obtain ⟨hmem, addr, hparse, hvalid⟩ := h.networks_accepted n hn
    obtain ⟨addr', hparse', -, hdisplay⟩ := h.canonical n.addr hmem
    rw [hparse, Option.some.injEq] at hparse'
    exact ⟨hmem, addr, hparse, hparse' ▸ hdisplay, hvalid⟩
  unfold sanitizeLanAdvertise
  dsimp only
  rw [hcandidates, hnetworks]

/-- **What is kept of an advertisement is in normal form: the first acceptable candidates in the
order in which they occur first, and networks of these alone; and it is kept as it is from
then on.** -/
theorem sanitize_normalForm (htext : Respells) (candidates : List String)
    (networks : List LanCandidate) :
    let out := sanitizeLanAdvertise candidates networks
    NormalForm out.1 out.2 ∧
      out.1 = (candidates.filterMap relaySpelling).eraseDups.take maxLanCandidates ∧
      sanitizeLanAdvertise out.1 out.2 = out :=
  ⟨normalForm_sanitize htext candidates networks, sanitizeCandidates_eq candidates,
    sanitize_of_normalForm (normalForm_sanitize htext candidates networks)⟩

end

/-! ### A private address and a public one -/

/-- A parser that knows two addresses. -/
@[reducible] def twoAddrText : SocketAddrText where
  parse s :=
    if s = "192.168.1.7:4000" then some ⟨.v4 0xc0a80107, 4000, 0⟩
    else if s = "8.8.8.8:53" then some ⟨.v4 0x08080808, 53, 0⟩
    else none
  display addr := if addr.port = 53 then "8.8.8.8:53" else "192.168.1.7:4000"

theorem respells_two : @Respells twoAddrText := by
  intro s addr h
  change (if s = "192.168.1.7:4000" then some _ else if s = "8.8.8.8:53" then some _ else none) =
    some addr at h
  split at h
  · cases h
    rfl
  · split at h
    · cases h
      rfl
    · cases h

theorem sanitize_normalForm_two :
    let out := @sanitizeLanAdvertise twoAddrText
      ["not-a-socket", "8.8.8.8:53", "192.168.1.7:4000", "192.168.1.7:4000"]
      [⟨"192.168.1.7:4000", 40⟩, ⟨"192.168.1.7:4000", 24⟩]
    @NormalForm twoAddrText out.1 out.2 ∧
      out.1 = (["not-a-socket", "8.8.8.8:53", "192.168.1.7:4000", "192.168.1.7:4000"].filterMap
        (@relaySpelling twoAddrText)).eraseDups.take maxLanCandidates ∧
      @sanitizeLanAdvertise twoAddrText out.1 out.2 = out :=
  @sanitize_normalForm twoAddrText respells_two _ _

end ClipBridge.Relay
