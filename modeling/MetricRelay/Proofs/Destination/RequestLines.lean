import MetricRelay.Proofs.Writer.Registration

/-!
# The lines of a request

A destination that is accepted has its header list in lower case, pair by pair (`of_eq_ok`). A request
composes it with the lines that all requests have: a name in the list has the values of the list and
no others, any other name its default (`get_requestHeaders`). Names are compared whatever their case
(`valuesOf`); as all names in a request are in lower case, that is to look them up in lower case.
-/

namespace MetricRelay

namespace Http

/-- A name in lower case. -/
def lowerCase (name : String) : String := String.ofList (name.toList.map Char.toLower)

/-- The values of the lines of a name, in order; case does not matter. -/
def valuesOf (lines : List (String × String)) (name : String) : List String :=
  (lines.filter fun l => lowerCase l.1 = lowerCase name).map Prod.snd

theorem toLower_toLower (c : Char) : c.toLower.toLower = c.toLower := by
  delta Char.toLower
  grind

theorem lowerCase_lowerCase (s : String) : lowerCase (lowerCase s) = lowerCase s := by
  unfold lowerCase
  rw [String.toList_ofList, List.map_map]
  exact congrArg String.ofList (List.map_congr_left fun c _ => toLower_toLower c)

theorem headerName?_eq_some {s n : String} (h : headerName? s = some n) : n = lowerCase s := by
  unfold headerName? at h
  split at h
  · cases h
    rfl
  · cases h

namespace Headers

/-- Every name is in lower case. -/
def Lowered (h : Headers) : Prop := ∀ l ∈ h.lines, lowerCase l.1 = l.1

variable {h given : Headers} {name value n : String}

theorem Lowered.valuesOf (hl : h.Lowered) (n : String) : valuesOf h.lines n = h.get (lowerCase n) := by
  unfold Http.valuesOf get
  rw [List.filter_congr fun l hmem => by rw [hl l hmem]]

theorem Lowered.append (hl : h.Lowered) (hname : lowerCase name = name) :
    (h.append name value).Lowered := by
  intro l hmem
  rcases List.mem_append.1 hmem with hmem | hmem
  · exact hl l hmem
  · rw [List.mem_singleton.1 hmem]
    exact hname

theorem Lowered.replace (hl : h.Lowered) (hgiven : given.Lowered) : (h.replace given).Lowered := by
  intro l hmem
  rcases List.mem_append.1 hmem with hmem | hmem
  · exact hl l (List.mem_filter.1 hmem).1
  · exact hgiven l hmem

theorem Lowered.offer (hl : h.Lowered) (hname : lowerCase name = name) :
    (h.offer name value).Lowered := by
  unfold Headers.offer
  split
  · exact hl
  · exact hl.append hname

/-- An offer is of no concern to other names. -/
theorem get_offer_of_ne (hn : n ≠ name) : (h.offer name value).get n = h.get n := by
  unfold offer
  split
  · rfl
  · rw [get_append, if_neg (Ne.symm hn), List.append_nil]

theorem get_offer_self :
    (h.offer name value).get name = if h.get name = [] then [value] else h.get name := by
  have hcontains := contains_eq_false_iff h name
  unfold offer
  by_cases hc : h.contains name = true
  · rw [if_pos hc, if_neg fun hnil => Bool.eq_false_iff.1 (hcontains.2 hnil) hc]
  · have hnil := hcontains.1 (Bool.eq_false_iff.2 hc)
    rw [if_neg hc, get_append, hnil, if_pos rfl, if_pos rfl, List.nil_append]

theorem get_append_lines (l m : List (String × String)) (n : String) :
    (⟨l ++ m⟩ : Headers).get n = (⟨l⟩ : Headers).get n ++ (⟨m⟩ : Headers).get n := by
  unfold get
  rw [List.filter_append, List.map_append]

end Headers

end Http

open Http

namespace DestinationOptions

/-- The names and values of a flat list. -/
def pairs : List String → List (String × String)
  | name :: value :: r => (name, value) :: pairs r
  | _ => []

/-- A list of pairs is what it is read from. -/
theorem flatMap_pairs {entries : List String} (h : entries.length % 2 = 0) :
    (pairs entries).flatMap (fun e => [e.1, e.2]) = entries := by
  fun_induction pairs entries with
  | case1 name value r ih =>
    have hr : r.length % 2 = 0 := by rwa [← Nat.add_mod_right]
    rw [List.flatMap_cons, ih hr]
    rfl
  | case2 entries hshort =>
    match entries, hshort with
    | [], _ => rfl
    | [_], _ => simp at h
    | name :: value :: r, hshort => exact absurd rfl (hshort name value r)

/-- What has been read is added pair by pair, with names in lower case. -/
theorem readHeaders_eq_ok {h h' : Headers} {entries : List String}
    (hr : readHeaders h entries = .ok h') :
    h'.lines = h.lines ++ (pairs entries).map fun e => (lowerCase e.1, e.2) := by
  fun_induction readHeaders h entries with
  | case1 | case3 => cases hr
  | case2 h name value r n hname hvalue ih =>
    rw [ih hr, pairs, List.map_cons, ← headerName?_eq_some hname]
    unfold Headers.append
    rw [List.append_assoc, List.singleton_append]
  | case4 entries h hshort =>
    cases hr
    rw [pairs, List.map_nil, List.append_nil]
    exact hshort

/-- The header list of accepted options, in lower case. -/
theorem headerLines_eq_ok {o : DestinationOptions} {h : Headers} (ho : o.headerLines = .ok h) :
    o.headers.length % 2 = 0 ∧ h.lines = (pairs o.headers).map fun e => (lowerCase e.1, e.2) := by
  unfold headerLines at ho
  simp only at ho
  split at ho
  · cases ho
  · next heven => exact ⟨by omega, readHeaders_eq_ok ho⟩

end DestinationOptions

open DestinationOptions

namespace Destination

variable {name : String} {options : DestinationOptions} {readUrl : Url.Reader} {d : Destination}

theorem lowered_headers (h : of name options readUrl = .ok d) : d.headers.Lowered := by
  intro l hl
  rw [(headerLines_eq_ok (of_eq_ok h).headers).2] at hl
  obtain ⟨e, -, rfl⟩ := List.mem_map.1 hl
  exact lowerCase_lowerCase e.1

/-- A destination has the values of its header list. -/
theorem get_headers (h : of name options readUrl = .ok d) (n : String) :
    d.headers.get (lowerCase n) = valuesOf (pairs options.headers) n := by
  have hlines := (headerLines_eq_ok (of_eq_ok h).headers).2
  unfold Headers.get valuesOf
  rw [hlines, List.filter_map, List.map_map]
  rfl

theorem contains_headers (h : of name options readUrl = .ok d) (n : String) :
    d.headers.contains (lowerCase n) = true ↔
      ∃ e ∈ pairs options.headers, lowerCase e.1 = lowerCase n := by
  have hlines := (headerLines_eq_ok (of_eq_ok h).headers).2
  unfold Headers.contains
  rw [hlines]
  simp

/-! ## Composing a request -/

/-- The lines that come before the header list. -/
def leadingLines (d : Destination) : Headers :=
  ⟨(d.url.credentials.map fun c => (authorization, basic c.1 c.2)).toList ++ ownHeaders.lines⟩

/-- The lines of the configured user. -/
def trailingLines (d : Destination) : Headers :=
  if d.options.basicUser = "" then .empty
  else ⟨[(authorization, basic d.options.basicUser d.options.basicPassword)]⟩

/-- What a request has of a name that the header list does not have: what the relay and the client say of
themselves. -/
def defaultLines : Headers :=
  ⟨[("content-encoding", "snappy"), ("content-type", "application/x-protobuf"),
    ("user-agent", "monitor-relay"), ("x-prometheus-remote-write-version", "0.1.0"),
    ("accept", "*/*")]⟩

theorem requestHeaders_eq (d : Destination) :
    d.requestHeaders =
      ((⟨(d.leadingLines.replace d.headers).lines ++ d.trailingLines.lines⟩ : Headers).offer
        "accept" "*/*").offer "host" d.url.authority := by
  unfold requestHeaders leadingLines trailingLines
  cases d.url.credentials <;> by_cases hu : d.options.basicUser = "" <;>
    simp [hu, Headers.append, Headers.empty]

/-- Before the offers the header list displaces what leads, and the configured user follows. -/
theorem get_composed (d : Destination) (n : String) :
    (⟨(d.leadingLines.replace d.headers).lines ++ d.trailingLines.lines⟩ : Headers).get n =
      (if d.headers.contains n then d.headers.get n else d.leadingLines.get n) ++
        d.trailingLines.get n := by
  rw [Headers.get_append_lines]
  exact congrArg (· ++ _) (Headers.get_replace ..)

theorem get_leadingLines_of_ne {n : String} (hn : n ≠ authorization) :
    d.leadingLines.get n = ownHeaders.get n := by
  have hnone : (⟨(d.url.credentials.map fun c => (authorization, basic c.1 c.2)).toList⟩ :
      Headers).get n = [] := by
    cases d.url.credentials with
    | none => rfl
    | some c => simp [Headers.get, Ne.symm hn]
  rw [leadingLines, Headers.get_append_lines, hnone, List.nil_append]

theorem get_trailingLines_of_ne {n : String} (hn : n ≠ authorization) :
    d.trailingLines.get n = [] := by
  unfold trailingLines
  split
  · rfl
  · simp [Headers.get, Ne.symm hn]

theorem get_defaultLines (n : String) :
    defaultLines.get n = ownHeaders.get n ++ if n = "accept" then ["*/*"] else [] := by
  have hsplit : defaultLines = ⟨ownHeaders.lines ++ [("accept", "*/*")]⟩ := rfl
  rw [hsplit, Headers.get_append_lines]
  by_cases hn : n = "accept"
  · simp [Headers.get, hn]
  · simp [Headers.get, hn, Ne.symm hn]

/-- A name has what the header list says of it, or else its default. -/
theorem get_requestHeaders (d : Destination) {n : String} (hauth : n ≠ authorization)
    (hhost : n ≠ "host") :
    d.requestHeaders.get n =
      if d.headers.contains n then d.headers.get n else defaultLines.get n := by
  have hcomposed := d.get_composed n
  rw [get_leadingLines_of_ne hauth, get_trailingLines_of_ne hauth, List.append_nil] at hcomposed
  rw [requestHeaders_eq, Headers.get_offer_of_ne hhost, get_defaultLines]
  by_cases haccept : n = "accept"
  · subst haccept
    have hown : ownHeaders.get "accept" = [] := by decide
    rw [hown] at hcomposed ⊢
    rw [Headers.get_offer_self, hcomposed]
    by_cases hlist : d.headers.contains "accept" = true
    · have hne : d.headers.get "accept" ≠ [] := fun hnil =>
        Bool.eq_false_iff.1 ((Headers.contains_eq_false_iff d.headers "accept").2 hnil) hlist
      rw [if_pos hlist, if_neg hne, if_pos hlist]
    · rw [if_neg hlist, if_pos rfl, if_neg hlist, if_pos rfl, List.nil_append]
  · rw [Headers.get_offer_of_ne haccept, hcomposed, if_neg haccept, List.append_nil]

/-- The credentials of the URL, unless the header list has others; then those of the configured user. -/
theorem get_authorization (d : Destination) :
    d.requestHeaders.get authorization =
      (if d.headers.contains authorization then d.headers.get authorization
        else (d.url.credentials.map fun c => basic c.1 c.2).toList) ++
      if d.options.basicUser = "" then []
        else [basic d.options.basicUser d.options.basicPassword] := by
  have hleading : d.leadingLines.get authorization =
      (d.url.credentials.map fun c => basic c.1 c.2).toList := by
    rw [leadingLines, Headers.get_append_lines]
    cases d.url.credentials with
    | none => decide
    | some c => simp [Headers.get, ownHeaders, authorization]
  have htrailing : d.trailingLines.get authorization =
      if d.options.basicUser = "" then []
        else [basic d.options.basicUser d.options.basicPassword] := by
    unfold trailingLines
    split
    · rfl
    · simp [Headers.get]
  rw [requestHeaders_eq, Headers.get_offer_of_ne (by decide), Headers.get_offer_of_ne (by decide),
    get_composed, hleading, htrailing]

theorem lowered_requestHeaders (h : d.headers.Lowered) : d.requestHeaders.Lowered := by
  have hauth : lowerCase authorization = authorization := by decide +kernel
  have hown : ownHeaders.Lowered := by unfold Headers.Lowered; decide +kernel
  have hleading : d.leadingLines.Lowered := by
    intro l hl
    rcases List.mem_append.1 hl with hl | hl
    · obtain ⟨c, -, rfl⟩ := Option.map_eq_some_iff.1 (Option.mem_toList.1 hl)
      exact hauth
    · exact hown l hl
  have htrailing : d.trailingLines.Lowered := by
    unfold trailingLines
    split
    · exact fun l hl => by cases hl
    · intro l hl
      rw [List.mem_singleton.1 hl]
      exact hauth
  have hcomposed :
      (⟨(d.leadingLines.replace d.headers).lines ++ d.trailingLines.lines⟩ : Headers).Lowered := by
    intro l hl
    exact (List.mem_append.1 hl).elim (hleading.replace h l) (htrailing l)
  rw [requestHeaders_eq]
  exact (hcomposed.offer (by decide +kernel)).offer (by decide +kernel)

/-! ## What goes out -/

/-- Names whose lines are not a matter of the header list alone: the credentials, the host, and what the
client says of the connection and of the length of the body. -/
def clientNames : List String :=
  [authorization, "host", "content-length", "connection", "keep-alive", "proxy-connection", "te",
    "trailer", "transfer-encoding", "upgrade"]

/-- The header list of an accepted destination is a list of pairs. For every name but those of the client,
each request has the values of the list, all of them and in order, if the name occurs in it in
whatever case; if not, it has the default of the name, if there is one. -/
theorem request_lines_by_list (h : of name options readUrl = .ok d) (payload : Bytes) {n : String}
    (hn : lowerCase n ∉ clientNames) :
    (pairs options.headers).flatMap (fun e => [e.1, e.2]) = options.headers ∧
    ((∃ e ∈ pairs options.headers, lowerCase e.1 = lowerCase n) →
      valuesOf (d.request payload).headers.lines n = valuesOf (pairs options.headers) n) ∧
    ((¬∃ e ∈ pairs options.headers, lowerCase e.1 = lowerCase n) →
      valuesOf (d.request payload).headers.lines n = valuesOf defaultLines.lines n) := by
  have hauth : lowerCase n ≠ authorization := fun he => hn (he ▸ by decide)
  have hhost : lowerCase n ≠ "host" := fun he => hn (he ▸ by decide)
  have hdefault : defaultLines.Lowered := by unfold Headers.Lowered; decide +kernel
  have hlines : valuesOf (d.request payload).headers.lines n = _ :=
    (lowered_requestHeaders (lowered_headers h)).valuesOf n
  rw [get_requestHeaders d hauth hhost] at hlines
  refine ⟨flatMap_pairs (headerLines_eq_ok (of_eq_ok h).headers).1, fun hlist => ?_, fun hlist => ?_⟩
  · rw [hlines, if_pos ((contains_headers h n).2 hlist), get_headers h]
  · rw [hlines, if_neg (mt (contains_headers h n).1 hlist), hdefault.valuesOf]

/-- One name in two spellings, and one of the relay's own. -/
def tagged : DestinationOptions where
  url := "http://127.0.0.1/write"
  headers := ["X-Team", "a", "User-Agent", "mine", "x-team", "b"]

theorem tagged_lines :
    ∃ d, of "vm" tagged = .ok d ∧
      valuesOf (d.request []).headers.lines "X-TEAM" = ["a", "b"] ∧
      valuesOf (d.request []).headers.lines "user-agent" = ["mine"] ∧
      valuesOf (d.request []).headers.lines "Content-Encoding" = ["snappy"] ∧
      valuesOf (d.request []).headers.lines "x-other" = [] := by
  have haccepted : (of "vm" tagged).isOk = true := by decide +kernel
  cases hd : of "vm" tagged with
  | error e =>
    rw [hd] at haccepted
    cases haccepted
  | ok d =>
    obtain ⟨-, hteam, -⟩ := request_lines_by_list hd [] (n := "X-TEAM") (by decide +kernel)
    obtain ⟨-, hagent, -⟩ := request_lines_by_list hd [] (n := "user-agent") (by decide +kernel)
    obtain ⟨-, -, hencoding⟩ :=
      request_lines_by_list hd [] (n := "Content-Encoding") (by decide +kernel)
    obtain ⟨-, -, hother⟩ := request_lines_by_list hd [] (n := "x-other") (by decide +kernel)
    refine ⟨d, rfl, (hteam (by decide +kernel)).trans (by decide +kernel),
      (hagent (by decide +kernel)).trans (by decide +kernel),
      (hencoding (by decide +kernel)).trans (by decide +kernel),
      (hother (by decide +kernel)).trans (by decide +kernel)⟩

end Destination

end MetricRelay
