import Conrogate.Protocol.Proxy

/-!
# The headers that an upstream gets

`build_out_headers` removes the headers that a client has no say in, and writes those of the
gateway.
-/

namespace Conrogate

open HeaderMap HeaderValue

def injectedHeaders (http : HttpCrate) (route : RouteSnapshot) (node : UpstreamNodeDto)
    (traceId requestId realIp : String) : List (String × String) :=
  [("x-trace-id", traceId), ("x-forwarded-for", realIp),
    ("x-forwarded-proto", upstreamScheme node), ("x-request-id", requestId),
    ("host", route.hostHeader.getD (upstreamHost http node))]

def writeAll (headers : HeaderMap) (injected : List (String × String)) : HeaderMap :=
  injected.foldl (fun out p => out.insertText p.1 p.2) headers

section

variable {headers headers' : HeaderMap} {injected : List (String × String)} {name text : String}

lemma getAll_writeAll_of_not_mem (headers : HeaderMap) (h : name ∉ injected.map Prod.fst) :
    (writeAll headers injected).getAll name = headers.getAll name := by
  induction injected generalizing headers with
  | nil => rfl
  | cons p injected ih =>
    rw [List.map_cons, List.mem_cons, not_or] at h
    exact (ih _ h.2).trans (getAll_insertText_of_ne headers (Ne.symm h.1) p.2)

lemma getAll_writeAll_of_mem (headers : HeaderMap) (hnodup : (injected.map Prod.fst).Nodup)
    (hmem : (name, text) ∈ injected) {v : HeaderValue} (hv : parse text = some v) :
    (writeAll headers injected).getAll name = [v] := by
  induction injected generalizing headers with
  | nil => cases hmem
  | cons p injected ih =>
    rw [List.map_cons, List.nodup_cons] at hnodup
    obtain rfl | hmem := List.mem_cons.mp hmem
    · exact (getAll_writeAll_of_not_mem _ hnodup.1).trans
        (getAll_insertText_self headers hv name)
    · exact ih _ hnodup.2 hmem

lemma getAll_writeAll_congr (h : ∀ name, headers.getAll name = headers'.getAll name) :
    ∀ name, (writeAll headers injected).getAll name =
      (writeAll headers' injected).getAll name := by
  induction injected generalizing headers headers' with
  | nil => exact h
  | cons p injected ih =>
    refine ih fun name => ?_
    change (headers.insertText p.1 p.2).getAll name = (headers'.insertText p.1 p.2).getAll name
    by_cases hname : p.1 = name
    · subst hname
      rw [insertText, insertText]
      cases parse p.2 with
      | none => exact h p.1
      | some v => rw [getAll_insert_self, getAll_insert_self]
    · rw [getAll_insertText_of_ne _ hname, getAll_insertText_of_ne _ hname]
      exact h name

end

section

variable (http : HttpCrate) (route : RouteSnapshot) (node : UpstreamNodeDto)
  (traceId requestId realIp : String)

variable {http route node traceId requestId realIp} in
lemma getAll_buildOutHeaders_of_injected {name text : String} {v : HeaderValue}
    (headers : HeaderMap)
    (hmem : (name, text) ∈ injectedHeaders http route node traceId requestId realIp)
    (hv : parse text = some v) :
    (buildOutHeaders http route node headers traceId requestId realIp).getAll name = [v] := by
  have hnodup : ((injectedHeaders http route node traceId requestId realIp).map
      Prod.fst).Nodup := by
    change ["x-trace-id", "x-forwarded-for", "x-forwarded-proto", "x-request-id", "host"].Nodup
    decide
  exact getAll_writeAll_of_mem _ hnodup hmem hv

/-- Two clients whose headers agree outside the sensitive ones send the upstream the same. What the
gateway writes stands alone under its name, and every other header passes as it is. -/
theorem buildOutHeaders_congr (headers headers' : HeaderMap)
    (hagree : ∀ name, name ∉ sensitiveHeaders → headers.getAll name = headers'.getAll name) :
    let out := buildOutHeaders http route node headers traceId requestId realIp
    let out' := buildOutHeaders http route node headers' traceId requestId realIp
    let injected := injectedHeaders http route node traceId requestId realIp
    (∀ name, out.getAll name = out'.getAll name) ∧
    (∀ name text v, (name, text) ∈ injected → HeaderValue.parse text = some v →
      out.getAll name = [v]) ∧
    ∀ name, name ∉ injected.map Prod.fst →
      out.getAll name = if name ∈ sensitiveHeaders then [] else headers.getAll name := by
  intro out out' injected
  refine ⟨?_, ?_, ?_⟩
  · change ∀ name, (writeAll (stripSensitiveHeaders headers) injected).getAll name =
      (writeAll (stripSensitiveHeaders headers') injected).getAll name
    refine getAll_writeAll_congr fun name => ?_
    rw [getAll_stripSensitiveHeaders, getAll_stripSensitiveHeaders]
    split_ifs with hname
    · rfl
    · exact hagree name hname
  · intro name text v hmem hv
    exact getAll_buildOutHeaders_of_injected headers hmem hv
  · intro name hname
    exact (getAll_writeAll_of_not_mem _ hname).trans (getAll_stripSensitiveHeaders headers name)

end

theorem buildOutHeaders_congr_accept :
    let http : HttpCrate := ⟨fun s => .ok ⟨s, none, none⟩, fun _ _ => .ok (), fun _ _ => .ok (),
      toString⟩
    let build (headers : HeaderMap) :=
      buildOutHeaders http ⟨1, .http, some 2, some "api", false, false, [], false⟩
        ⟨4, 2, "10.0.0.9:80", 1, true⟩ headers "t1" "r1" "192.0.2.7"
    let accept : HeaderMap := [("accept", .ofString "a"), ("accept", .ofString "b")]
    let headers := ("authorization", .ofString "secret") :: ("x-trace-id", .ofString "me") :: accept
    (∀ name, (build headers).getAll name = (build accept).getAll name) ∧
    (build headers).getAll "x-trace-id" = [.ofString "t1"] ∧
    (build headers).getAll "accept" = [.ofString "a", .ofString "b"] := by
  intro http build accept headers
  have hagree : ∀ name, name ∉ sensitiveHeaders →
      getAll headers name = accept.getAll name := by
    intro name hname
    rw [getAll_cons_of_ne, getAll_cons_of_ne]
    · rintro rfl
      exact hname (by decide)
    · rintro rfl
      exact hname (by decide)
  obtain ⟨hsame, hinjected, hother⟩ :=
    buildOutHeaders_congr http _ _ "t1" "r1" "192.0.2.7" _ _ hagree
  refine ⟨hsame, hinjected "x-trace-id" "t1" (.ofString "t1") (by simp [injectedHeaders])
    (by decide), (hother "accept" ?_).trans (by decide)⟩
  change "accept" ∉ ["x-trace-id", "x-forwarded-for", "x-forwarded-proto", "x-request-id", "host"]
  decide

end Conrogate
