import Mathlib.Data.List.DropRight
import Mathlib.Data.String.Basic

/-!
# The URL of the relay

Following `session` in `core/src/client.rs` and `http_base` in `core/src/blob.rs`. The user gives
one URL, often as a browser shows it. The session makes the URL of a WebSocket from it, and the
blobs the base of an HTTP URL.

* `SameServer` — both reach one server and path, with TLS or without.
* `sameServer_iff` — they do exactly if the URL has one of the four schemes. Without a scheme the
  blobs use HTTP, and the session has nothing that can be dialled.
-/

namespace ClipBridge

/-- `str::trim_end_matches`. -/
def trimEndMatches (c : Char) (s : String) : String :=
  String.ofList (s.toList.rdropWhile (· == c))

/-- `str::strip_prefix`. -/
def stripPrefix (pre s : String) : Option String :=
  if pre.toList <+: s.toList then some (String.ofList (s.toList.drop pre.toList.length)) else none

/-- The URL that the session dials. -/
def wsUrl (relayUrl : String) : String :=
  let normalized := trimEndMatches '/' relayUrl
  let normalized :=
    match stripPrefix "https://" normalized with
    | some rest => "wss://" ++ rest
    | none =>
        match stripPrefix "http://" normalized with
        | some rest => "ws://" ++ rest
        | none => normalized
  normalized ++ "/ws"

def httpBase (relayUrl : String) : String :=
  let trimmed := trimEndMatches '/' relayUrl
  match stripPrefix "wss://" trimmed with
  | some rest => "https://" ++ rest
  | none =>
      match stripPrefix "ws://" trimmed with
      | some rest => "http://" ++ rest
      | none =>
          if (stripPrefix "https://" trimmed).isSome || (stripPrefix "http://" trimmed).isSome then
            trimmed
          else "http://" ++ trimmed

/-! ## Schemes -/

theorem stripPrefix_eq_some {pre s rest : String} :
    stripPrefix pre s = some rest ↔ s = pre ++ rest := by
  unfold stripPrefix
  constructor
  · intro h
    split at h
    · rename_i hpre
      obtain ⟨t, ht⟩ := hpre
      rw [Option.some.injEq] at h
      rw [← String.toList_inj, String.toList_append, ← h, ← ht]
      simp
    · cases h
  · rintro rfl
    rw [String.toList_append, if_pos (List.prefix_append _ _), List.drop_left,
      String.ofList_toList]

theorem stripPrefix_append (pre rest : String) : stripPrefix pre (pre ++ rest) = some rest :=
  stripPrefix_eq_some.2 rfl

/-- The schemes that the program knows. -/
def schemes : List String := ["ws://", "wss://", "http://", "https://"]

/-- No text begins with two of the schemes. -/
theorem stripPrefix_scheme {pre pre' : String} (h : pre ∈ schemes) (h' : pre' ∈ schemes)
    (rest : String) : stripPrefix pre (pre' ++ rest) = if pre = pre' then some rest else none := by
  by_cases heq : pre = pre'
  · subst heq
    rw [if_pos rfl, stripPrefix_append]
  · have hapart : ∀ a ∈ schemes, ∀ b ∈ schemes, a ≠ b → ¬ a.toList <+: b.toList := by decide
    rw [if_neg heq, stripPrefix, if_neg]
    rw [String.toList_append]
    intro hpre
    rcases List.prefix_or_prefix_of_prefix hpre
      (List.prefix_append pre'.toList rest.toList) with hle | hle
    · exact hapart _ h _ h' heq hle
    · exact hapart _ h' _ h (Ne.symm heq) hle

def wsScheme (tls : Bool) : String := if tls then "wss://" else "ws://"

def httpScheme (tls : Bool) : String := if tls then "https://" else "http://"

/-- The URL has a scheme that the program knows. -/
def HasScheme (url : String) : Prop :=
  ∃ tls rest, url = wsScheme tls ++ rest ∨ url = httpScheme tls ++ rest

/-- The session and the blobs reach the same server and path, with the same protection. -/
def SameServer (relayUrl : String) : Prop :=
  ∃ tls rest, wsUrl relayUrl = wsScheme tls ++ rest ++ "/ws" ∧
    httpBase relayUrl = httpScheme tls ++ rest

/-! ## What becomes of each scheme -/

section

variable {relayUrl rest : String} {tls : Bool}

theorem wsUrl_of_ws (h : trimEndMatches '/' relayUrl = wsScheme tls ++ rest) :
    wsUrl relayUrl = wsScheme tls ++ rest ++ "/ws" := by
  cases tls <;> simp (disch := decide) [wsUrl, h, wsScheme, stripPrefix_scheme]

theorem wsUrl_of_http (h : trimEndMatches '/' relayUrl = httpScheme tls ++ rest) :
    wsUrl relayUrl = wsScheme tls ++ rest ++ "/ws" := by
  cases tls <;> simp (disch := decide) [wsUrl, h, wsScheme, httpScheme, stripPrefix_scheme]

theorem httpBase_of_ws (h : trimEndMatches '/' relayUrl = wsScheme tls ++ rest) :
    httpBase relayUrl = httpScheme tls ++ rest := by
  cases tls <;> simp (disch := decide) [httpBase, h, wsScheme, httpScheme, stripPrefix_scheme]

theorem httpBase_of_http (h : trimEndMatches '/' relayUrl = httpScheme tls ++ rest) :
    httpBase relayUrl = httpScheme tls ++ rest := by
  cases tls <;> simp (disch := decide) [httpBase, h, httpScheme, stripPrefix_scheme]

/-- Without a scheme nothing is stripped. -/
theorem stripPrefix_of_not_hasScheme {url : String} (h : ¬ HasScheme url) (tls : Bool) :
    stripPrefix (wsScheme tls) url = none ∧ stripPrefix (httpScheme tls) url = none := by
  refine ⟨Option.eq_none_iff_forall_ne_some.2 fun rest hrest => ?_,
    Option.eq_none_iff_forall_ne_some.2 fun rest hrest => ?_⟩
  · exact h ⟨tls, rest, .inl (stripPrefix_eq_some.1 hrest)⟩
  · exact h ⟨tls, rest, .inr (stripPrefix_eq_some.1 hrest)⟩

theorem wsUrl_of_not_hasScheme (h : ¬ HasScheme (trimEndMatches '/' relayUrl)) :
    wsUrl relayUrl = trimEndMatches '/' relayUrl ++ "/ws" := by
  have hhttps := (stripPrefix_of_not_hasScheme h true).2
  have hhttp := (stripPrefix_of_not_hasScheme h false).2
  unfold wsUrl
  dsimp only
  rw [show "https://" = httpScheme true from rfl, hhttps,
    show "http://" = httpScheme false from rfl, hhttp]

end

/-- **The session and the blobs reach the same server exactly if the URL, without the slashes at
its end, has one of the four schemes.** -/
theorem sameServer_iff (relayUrl : String) :
    SameServer relayUrl ↔ HasScheme (trimEndMatches '/' relayUrl) := by
  constructor
  · rintro ⟨tls, rest, hws, -⟩
    by_contra h
    rw [wsUrl_of_not_hasScheme h, String.append_left_inj] at hws
    exact h ⟨tls, rest, .inl hws⟩
  · rintro ⟨tls, rest, hws | hhttp⟩
    · exact ⟨tls, rest, wsUrl_of_ws hws, httpBase_of_ws hws⟩
    · exact ⟨tls, rest, wsUrl_of_http hhttp, httpBase_of_http hhttp⟩

/-- A host and a port alone. -/
theorem bare_host_not_sameServer : ¬ ∀ relayUrl, SameServer relayUrl := by
  intro h
  obtain ⟨tls, rest, hws, -⟩ := h "r.example:8787"
  have hurl : wsUrl "r.example:8787" = "r.example:8787/ws" := by decide
  rw [hurl] at hws
  have hlist := congrArg String.toList hws
  rw [String.toList_append, String.toList_append] at hlist
  cases tls <;> cases hlist

end ClipBridge
