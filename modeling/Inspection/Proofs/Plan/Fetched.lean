import Inspection.Artifact.Served
import Inspection.Profile
import Inspection.Proofs.Url.Address
import Inspection.Proofs.Url.Segment
import Mathlib.Data.List.Forall2

/-!
# Plan — what schemas are fetched from

The schema of a database is requested from the server that named it, under a path of two segments
of which the second one is the name.  Characters that the writing of URLs leaves out are left out
of the name before dots are looked for, and so a name with one asks for another database, for all
of them, or for the root of the server.

* `Url.schemaPath_cases`: the path of a name, by what is kept of it.
* `schemas_asked_by_name`: every schema is requested by the name of its database just if nothing is
  left out of the name, and then no other database is asked for at the same URL.
* `climbing_schema_escapes`: a name that can be that of a file and asks for the root of the server.
-/

namespace Inspection

/-- An operation requests a URL. -/
def Operation.Requests (o : Operation) (url : Url) : Prop :=
  ∃ request, o.collector = .http request ∧ request.url = .ok url

namespace Url

/-- The URL is one of a server, with nothing behind its path. -/
structure IsAt (url : Url) (host : String) (port : UInt16) : Prop where
  host : url.host.render = host.toList
  port : url.port.getD 80 = port.toNat
  credentials : url.credentials = []
  query : url.query = none
  fragment : url.fragment = none

/-- The URL asks for the schema of a database by its name. -/
def AsksFor (url : Url) (name : String) : Prop :=
  ∃ segment, url.path = ["schema".toList, segment] ∧ decode segment = Text.encode name

/-- Nothing is left out of a name. -/
def IsWhole (name : String) : Prop := ∀ c ∈ name.toList, isIgnored c = false

theorem isAt_ofServer {host : String} {found : Host} (h : found.render = host.toList)
    (port : UInt16) (path : List (List Char)) : (ofServer found port.toNat path).IsAt host port where
  host := h
  port := by
    simp only [ofServer]
    split
    next hdefault => exact hdefault.symm
    · rfl
  credentials := rfl
  query := rfl
  fragment := rfl

/-- URLs of one server with the same text have the same text for a path. -/
theorem path_of_render {found : Host} {port : Nat} {path other : List (List Char)}
    (h : (ofServer found port path).render = (ofServer found port other).render) :
    path.flatMap ('/' :: ·) = other.flatMap ('/' :: ·) := by
  rw [render_ofServer, render_ofServer] at h
  exact List.append_cancel_left (String.ofList_injective h)

/-! ### The path -/

/-- The path under which the schema of a database is requested. -/
def schemaPath (name : String) : List (List Char) :=
  push ["schema".toList] (segmentOf (kept name)) true

theorem schemaPath_of_isWhole {name : String} (hwhole : IsWhole name) (hdot : name ≠ ".")
    (hdots : name ≠ "..") : schemaPath name = ["schema".toList, segmentOf name] := by
  rw [schemaPath, kept_eq_self_iff.mpr hwhole, push_segmentOf hdot hdots]
  rfl

/-- **Where a name leads**: to the root of the server, to all schemas, or to the schema of what is
kept of it. -/
theorem schemaPath_cases (name : String) :
    kept name = ".." ∧ schemaPath name = [[]] ∨
    kept name = "." ∧ schemaPath name = ["schema".toList, []] ∨
    schemaPath name = ["schema".toList, segmentOf (kept name)] := by
  by_cases hdots : kept name = ".."
  · refine .inl ⟨hdots, ?_⟩
    rw [schemaPath, hdots]
    decide
  · by_cases hdot : kept name = "."
    · refine .inr (.inl ⟨hdot, ?_⟩)
      rw [schemaPath, hdot]
      decide
    · exact .inr (.inr (push_segmentOf hdot hdots _ true))

theorem asksFor_iff {url : Url} {name : String} (hpath : url.path = schemaPath name)
    (hempty : name ≠ "") (hdot : name ≠ ".") (hdots : name ≠ "..") :
    url.AsksFor name ↔ IsWhole name := by
  constructor
  · rintro ⟨segment, htwo, hsegment⟩
    rw [hpath] at htwo
    rcases schemaPath_cases name with ⟨-, hroot⟩ | ⟨-, hall⟩ | hkept
    · rw [hroot] at htwo
      cases htwo
    · rw [hall] at htwo
      obtain rfl : [] = segment := (List.cons.inj (List.cons.inj htwo).2).1
      exact absurd (Text.encode_injective (hsegment.symm.trans rfl)) hempty
    · rw [hkept] at htwo
      obtain rfl : segmentOf (kept name) = segment := (List.cons.inj (List.cons.inj htwo).2).1
      exact kept_eq_self_iff.mp (Text.encode_injective ((decode_segmentOf _).symm.trans hsegment))
  · intro hwhole
    exact ⟨segmentOf name, hpath.trans (schemaPath_of_isWhole hwhole hdot hdots),
      decode_segmentOf name⟩

end Url

namespace Artifact

/-- A name that can be that of a file does not stand for a place. -/
theorem ne_dots_of_isFileName {name : String} (h : isFileName name = true) :
    name ≠ "" ∧ name ≠ "." ∧ name ≠ ".." := by
  refine ⟨?_, ?_, ?_⟩ <;> rintro rfl <;> exact absurd h (by decide)

section

variable {host : String} (hhost : Url.IsServerHost host.toList) {found : Url.Host}
  (hfound : Url.Host.read host.toList = .ok found) (port : UInt16) (root : String) (timeout : Nat)
  {name : String} (hname : isFileName name = true)
include hhost hfound hname

/-- The one URL that the schema of a database is requested at. -/
theorem requests_schema_iff {url : Url} :
    (schema root (addressOf host (some port)) timeout name).Requests url ↔
      url = Url.ofServer found port.toNat (Url.schemaPath name) := by
  obtain ⟨-, hdot, hdots⟩ := ne_dots_of_isFileName hname
  have htext : "//" ++ addressOf host (some port) ++ "/schema" =
      String.ofList ('/' :: '/' ::
        (Url.authority host.toList port.toNat ++ '/' :: "schema".toList)) := by
    simp [← String.toList_inj, addressOf, Url.authority, Text.toList_natural]
  have hread : Url.read ("//" ++ addressOf host (some port) ++ "/schema") =
      .ok (Url.ofServer found port.toNat ["schema".toList]) := by
    rw [htext, Url.read_server hhost hfound port.toNat_lt
      (List.all_iff_forall_prop.mp (by decide))]
    rfl
  have happend : Url.appendSegment ["schema".toList] name = Url.schemaPath name :=
    Url.appendSegment_eq hdot hdots (by decide)
  have hbuilt : (Url.ofServer found port.toNat ["schema".toList]).withSegments [name] =
      Url.ofServer found port.toNat (Url.schemaPath name) := by
    rw [← happend]
    rfl
  constructor
  · rintro ⟨request, hcollector, hurl⟩
    obtain rfl := Collector.http.inj hcollector
    simp only [Request.url, hread, hbuilt] at hurl
    exact (Except.ok.inj hurl).symm
  · rintro rfl
    refine ⟨_, rfl, ?_⟩
    simp only [Request.url, hread, hbuilt]
    rfl

end

end Artifact

/-- **Every schema is requested by the name of its database** just if nothing is left out of the
name, and then no other database is asked for at the same URL. -/
theorem schemas_asked_by_name {host : String} (hhost : Url.IsServerHost host.toList)
    (port : UInt16) (root : String) (timeout : Nat) (names : List String) :
    List.Forall₂
      (fun name o => ∃ url, o.Requests url ∧ url.IsAt host port ∧
        (url.AsksFor name ↔ Url.IsWhole name))
      (names.filter Artifact.isFileName)
      (Artifact.schemas root (addressOf host (some port)) timeout names) ∧
    ∀ a ∈ names.filter Artifact.isFileName, ∀ b ∈ names.filter Artifact.isFileName,
      Url.IsWhole a → Url.IsWhole b → ∀ url other,
        (Artifact.schema root (addressOf host (some port)) timeout a).Requests url →
        (Artifact.schema root (addressOf host (some port)) timeout b).Requests other →
        url.render = other.render → a = b := by
  obtain ⟨found, hfound, hrender⟩ := hhost.read
  constructor
  · rw [Artifact.schemas, List.forall₂_map_right_iff, List.forall₂_same]
    intro name hname
    obtain ⟨hempty, hdot, hdots⟩ := Artifact.ne_dots_of_isFileName (List.of_mem_filter hname)
    refine ⟨Url.ofServer found port.toNat (Url.schemaPath name), ?_,
      Url.isAt_ofServer hrender port _, Url.asksFor_iff (Url.path_ofServer ..) hempty hdot hdots⟩
    exact (Artifact.requests_schema_iff hhost hfound port root timeout
      (List.of_mem_filter hname)).mpr rfl
  · intro a ha b hb hawhole hbwhole url other hurl hother htext
    obtain ⟨-, hadot, hadots⟩ := Artifact.ne_dots_of_isFileName (List.of_mem_filter ha)
    obtain ⟨-, hbdot, hbdots⟩ := Artifact.ne_dots_of_isFileName (List.of_mem_filter hb)
    rw [Artifact.requests_schema_iff hhost hfound port root timeout (List.of_mem_filter ha),
      Url.schemaPath_of_isWhole hawhole hadot hadots] at hurl
    rw [Artifact.requests_schema_iff hhost hfound port root timeout (List.of_mem_filter hb),
      Url.schemaPath_of_isWhole hbwhole hbdot hbdots] at hother
    subst hurl hother
    have hsegment : Url.segmentOf a = Url.segmentOf b := by
      simpa using Url.path_of_render htext
    refine Text.encode_injective ?_
    rw [← Url.decode_segmentOf, hsegment, Url.decode_segmentOf]

theorem isServerHost_first : Url.IsServerHost "10.0.0.1".toList := by
  have hdotted : Url.Ipv4.dotted 10 0 0 1 = "10.0.0.1".toList := by decide
  exact hdotted ▸ .ipv4 10 0 0 1

/-- A name that looks encoded already is asked for as it is. -/
theorem schemas_asked_by_name_encoded :
    Url.IsServerHost "10.0.0.1".toList ∧
    ∃ url, (Artifact.schema "r" (addressOf "10.0.0.1" (some 10080)) 5 "50%2e é").Requests url ∧
      url.IsAt "10.0.0.1" 10080 ∧ url.AsksFor "50%2e é" := by
  have hall := (schemas_asked_by_name isServerHost_first 10080 "r" 5 ["..", "50%2e é"]).1
  have haccepted : ["..", "50%2e é"].filter Artifact.isFileName = ["50%2e é"] := by decide
  rw [Artifact.schemas, haccepted, List.map_singleton, List.forall₂_cons] at hall
  obtain ⟨⟨url, hrequests, hat, hasks⟩, -⟩ := hall
  have hwhole : Url.IsWhole "50%2e é" := List.all_iff_forall_prop.mp (by decide)
  exact ⟨isServerHost_first, url, hrequests, hat, hasks.mpr hwhole⟩

/-- A name whose tab is left out takes back the segment before it. -/
theorem climbing_schema_escapes :
    Artifact.isFileName "\t.." = true ∧
    ∃ url, (Artifact.schema "r" (addressOf "10.0.0.1" (some 10080)) 5 "\t..").Requests url ∧
      ¬url.AsksFor "\t.." ∧ url.path = [[]] ∧ url.render = "http://10.0.0.1:10080/" := by
  have hname : Artifact.isFileName "\t.." = true := by decide
  have hpath : Url.schemaPath "\t.." = [[]] := by decide
  obtain ⟨found, hfound, hrender⟩ := isServerHost_first.read
  refine ⟨hname, Url.ofServer found 10080 [[]], ?_, ?_, rfl, ?_⟩
  · refine (Artifact.requests_schema_iff isServerHost_first hfound 10080 "r" 5 hname).mpr ?_
    rw [hpath]
    rfl
  · rintro ⟨segment, htwo, -⟩
    cases htwo
  · rw [Url.render_ofServer, hrender]
    decide

end Inspection
