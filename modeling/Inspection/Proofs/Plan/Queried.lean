import Inspection.Proofs.Check
import Inspection.Proofs.Plan.Fetched
import Inspection.Proofs.Text.Decimal
import Inspection.Proofs.Url.Form

/-!
# Plan — what metrics are queried with

The parameters of a request stand behind the question mark of its URL, and nothing else does, as
long as address and path have no query or fragment of their own.  A server that reads them as those
of a form has the list that the request was made with, and all else is as it would be without.

* `Url.read_bare`: a text without question and number signs has no query and no fragment.
* `Url.AsksWith.eq_of_render`: the text of a URL tells the parameters.
* `parameters_come_back`: parameters come back, and so requests for metrics differ.
-/

namespace Inspection

namespace Url

/-- A text ends before queries and fragments begin. -/
def IsBare (text : String) : Prop := ∀ c ∈ text.toList, c ≠ '?' ∧ c ≠ '#'

instance (text : String) : Decidable (IsBare text) := List.decidableBAll _ text.toList

theorem isBare_append {a b : String} : IsBare (a ++ b) ↔ IsBare a ∧ IsBare b := by
  simp only [IsBare, String.toList_append, List.forall_mem_append]

/-- The URL without its query. -/
def withoutQuery (url : Url) : Url := { url with query := none }

/-- The URL ends with a query that is read as a list of parameters. -/
structure AsksWith (url : Url) (params : List (String × String)) : Prop where
  query : ∃ query, url.query = some query ∧ '?' ∉ query ∧ Form.read query = params
  fragment : url.fragment = none

/-- The query and the fragment of a URL stand in its text. -/
theorem tail_of_read {text : String} {url : Url} (h : read text = .ok url) :
    ∃ rest : List Char, (∀ c ∈ rest, c ∈ text.toList) ∧
      url.query = (readTail (rest.dropWhile fun c => c ≠ '?' && c ≠ '#')).1 ∧
      url.fragment = (readTail (rest.dropWhile fun c => c ≠ '?' && c ≠ '#')).2 := by
  obtain ⟨authority, -, h⟩ := Check.bind_eq_ok.mp h
  obtain rfl := Check.pure_eq_ok.mp h
  refine ⟨_, fun c hc => ?_, rfl, rfl⟩
  -- Blanks at the end, ignored characters, the slashes and the address are taken off, one by one.
  have hvisible := (List.dropWhile_suffix _).subset ((List.dropWhile_suffix _).subset hc)
  have hkept := List.mem_reverse.mp (List.mem_of_mem_filter hvisible)
  exact List.mem_reverse.mp ((List.dropWhile_suffix _).subset hkept)

/-- A text without question and number signs has no query and no fragment. -/
theorem read_bare {text : String} (hbare : IsBare text) {url : Url} (h : read text = .ok url) :
    url.query = none ∧ url.fragment = none := by
  obtain ⟨rest, hrest, hquery, hfragment⟩ := tail_of_read h
  have hnil : rest.dropWhile (fun c => c ≠ '?' && c ≠ '#') = [] := by
    refine List.dropWhile_eq_nil_iff.mpr fun c hc => ?_
    simp [hbare c (hrest c hc)]
  rw [hnil] at hquery hfragment
  exact ⟨hquery, hfragment⟩

@[simp] theorem query_withSegments (url : Url) (segments : List String) :
    (url.withSegments segments).query = url.query := by
  unfold withSegments
  split <;> rfl

@[simp] theorem fragment_withSegments (url : Url) (segments : List String) :
    (url.withSegments segments).fragment = url.fragment := by
  unfold withSegments
  split <;> rfl

section

variable {url : Url} (hquery : url.query = none)
include hquery

theorem withParams_eq {params : List (String × String)} (hparams : params ≠ []) :
    url.withParams params = { url with query := some (Form.append [] params) } := by
  rw [withParams, if_neg (by simpa using hparams), hquery, Option.getD_none]

/-- Parameters are added to a URL, and nothing else is changed. -/
theorem withoutQuery_withParams {params : List (String × String)} (hparams : params ≠ []) :
    (url.withParams params).withoutQuery = url := by
  rw [withParams_eq hquery hparams, withoutQuery, ← hquery]

theorem asksWith_withParams (hfragment : url.fragment = none) {params : List (String × String)}
    (hparams : params ≠ []) : (url.withParams params).AsksWith params := by
  rw [withParams_eq hquery hparams]
  refine ⟨⟨Form.append [] params, rfl, ?_, Form.read_append params⟩, hfragment⟩
  exact Form.notMem_append ⟨by decide, by decide, by decide, by decide⟩ (by decide) (by decide) _

end

/-- The text of a URL with a query and without a fragment. -/
theorem render_of_query {url : Url} {query : List Char} (hq : url.query = some query)
    (hf : url.fragment = none) :
    url.render.toList = url.withoutQuery.render.toList ++ '?' :: query := by
  simp [render, withoutQuery, hq, hf]

/-- **The text of a URL tells the parameters.** -/
theorem AsksWith.eq_of_render {url other : Url} {params more : List (String × String)}
    (h : url.AsksWith params) (h' : other.AsksWith more) (htext : url.render = other.render) :
    params = more := by
  obtain ⟨query, hq, hmark, rfl⟩ := h.query
  obtain ⟨query', hq', hmark', rfl⟩ := h'.query
  -- The query is what stands behind the last question mark.
  have hpieces := congrArg (fun s => (Text.split '?' s.toList).getLast?) htext
  simp only [render_of_query hq h.fragment, render_of_query hq' h'.fragment, Text.split_append,
    Text.split_of_notMem hmark, Text.split_of_notMem hmark', List.getLast?_concat] at hpieces
  rw [Option.some.inj hpieces]

end Url

/-! ### Requests -/

namespace Request

/-- The request without its parameters. -/
def bare (r : Request) : Request := { r with params := [] }

theorem url_eq (r : Request) : r.url = r.bare.url.map (·.withParams r.params) := by
  unfold Request.url
  simp only [bare]
  cases Url.read ("//" ++ r.address ++ r.path) <;> rfl

section

variable {r : Request} (haddress : Url.IsBare r.address) (hpath : Url.IsBare r.path) {url : Url}
include haddress hpath

/-- Without parameters, nothing stands behind the path. -/
theorem url_of_bare (h : r.bare.url = .ok url) : url.query = none ∧ url.fragment = none := by
  have htext : Url.IsBare ("//" ++ r.address ++ r.path) :=
    Url.isBare_append.mpr ⟨Url.isBare_append.mpr ⟨by decide, haddress⟩, hpath⟩
  unfold Request.url at h
  split at h
  next base hread =>
    obtain rfl := Except.ok.inj h
    obtain ⟨hquery, hfragment⟩ := Url.read_bare htext hread
    exact ⟨(Url.query_withSegments ..).trans hquery, (Url.fragment_withSegments ..).trans hfragment⟩
  · cases h

/-- A request asks with its parameters, and is the same without them but for the query. -/
theorem asksWith_of_url (hparams : r.params ≠ []) (h : r.url = .ok url) :
    r.bare.url = .ok url.withoutQuery ∧ url.AsksWith r.params := by
  rw [url_eq, Check.map_eq_ok] at h
  obtain ⟨plain, hplain, rfl⟩ := h
  obtain ⟨hquery, hfragment⟩ := url_of_bare haddress hpath hplain
  rw [Url.withoutQuery_withParams hquery hparams]
  exact ⟨hplain, Url.asksWith_withParams hquery hfragment hparams⟩

end

end Request

/-! ### Metrics -/

/-- The parameters that a metric over a window is asked for with. -/
def Window.params (w : Window) (metric : String) : List (String × String) :=
  [("query", metric), ("start", Text.integer w.start.seconds),
    ("end", Text.integer w.finish.seconds), ("step", Text.natural w.step)]

theorem Window.of_params_eq {w w' : Window} {metric metric' : String}
    (h : w.params metric = w'.params metric') :
    metric = metric' ∧ w.start.seconds = w'.start.seconds ∧
      w.finish.seconds = w'.finish.seconds ∧ w.step = w'.step := by
  simp only [params, List.cons.injEq, Prod.mk.injEq, true_and, and_true] at h
  obtain ⟨hmetric, hstart, hfinish, hstep⟩ := h
  exact ⟨hmetric, Text.integer_injective hstart, Text.integer_injective hfinish,
    Text.natural_injective hstep⟩

theorem isBare_queryRange : Url.IsBare "/api/v1/query_range" := by decide

theorem Artifact.asksWith_metricRange {root address : String} (haddress : Url.IsBare address)
    {timeout : Nat} {w : Window} {metric : String} {url : Url}
    (h : (metricRange root address timeout w metric).Requests url) :
    Url.read ("//" ++ address ++ "/api/v1/query_range") = .ok url.withoutQuery ∧
      url.AsksWith (w.params metric) := by
  obtain ⟨request, hcollector, hurl⟩ := h
  obtain rfl := Collector.http.inj hcollector
  obtain ⟨hbare, hasks⟩ := Request.asksWith_of_url haddress isBare_queryRange (List.cons_ne_nil _ _) hurl
  refine ⟨?_, hasks⟩
  unfold Request.url at hbare
  split at hbare
  next base hread =>
    obtain rfl : base = url.withoutQuery := Except.ok.inj hbare
    exact hread
  · cases hbare

/-- **Parameters come back.**  Where address and path have no query and no fragment, a request with
parameters asks for what it would ask for without, host, port and path, and its query is read as
the parameters, in order.  So a metric over a window is asked for by its name, the seconds of both
ends and the step, and no other metric, window or step is asked for at the same URL. -/
theorem parameters_come_back :
    (∀ r : Request, Url.IsBare r.address → Url.IsBare r.path → r.params ≠ [] →
      ∀ bare, r.bare.url = .ok bare →
        ∃ url, r.url = .ok url ∧ url.withoutQuery = bare ∧ url.AsksWith r.params) ∧
    (∀ root address timeout w metric, Url.IsBare address →
      ∀ bare, Url.read ("//" ++ address ++ "/api/v1/query_range") = .ok bare →
        ∃ url, (Artifact.metricRange root address timeout w metric).Requests url ∧
          url.withoutQuery = bare ∧
          url.AsksWith [("query", metric), ("start", Text.integer w.start.seconds),
            ("end", Text.integer w.finish.seconds), ("step", Text.natural w.step)]) ∧
    ∀ root address timeout w metric root' address' timeout' w' metric' url url',
      Url.IsBare address → Url.IsBare address' →
      (Artifact.metricRange root address timeout w metric).Requests url →
      (Artifact.metricRange root' address' timeout' w' metric').Requests url' →
      url.render = url'.render →
      metric = metric' ∧ w.start.seconds = w'.start.seconds ∧
        w.finish.seconds = w'.finish.seconds ∧ w.step = w'.step := by
  refine ⟨fun r haddress hpath hparams bare hbare => ?_,
    fun root address timeout w metric haddress bare hread => ?_, ?_⟩
  · have hurl : r.url = .ok (bare.withParams r.params) := by
      rw [Request.url_eq, hbare]
      rfl
    obtain ⟨hsame, hasks⟩ := Request.asksWith_of_url haddress hpath hparams hurl
    exact ⟨_, hurl, Except.ok.inj (hsame.symm.trans hbare), hasks⟩
  · have hrequests : (Artifact.metricRange root address timeout w metric).Requests
        (bare.withParams (w.params metric)) := by
      refine ⟨_, rfl, ?_⟩
      simp only [Request.url, hread]
      rfl
    obtain ⟨hsame, hasks⟩ := Artifact.asksWith_metricRange haddress hrequests
    exact ⟨_, hrequests, Except.ok.inj (hsame.symm.trans hread), hasks⟩
  · intro root address timeout w metric root' address' timeout' w' metric' url url' haddress
      haddress' h h' htext
    exact Window.of_params_eq ((Artifact.asksWith_metricRange haddress h).2.eq_of_render
      (Artifact.asksWith_metricRange haddress' h').2 htext)

/-- A request with empty and repeated parameters, and with characters that part parameters. -/
def oddRequest : Request where
  name := "odd"
  address := "10.0.0.1:9090"
  path := "/api/v1/query_range"
  params := [("", ""), ("a&b", "=é +%26"), ("", ""), ("#", "?")]

/-- The place that metrics are asked for at a server. -/
def metricsOfFirst : Url where
  credentials := []
  host := .ipv4 167772161
  port := some 9090
  path := ["api".toList, "v1".toList, "query_range".toList]
  query := none
  fragment := none

theorem parameters_come_back_odd :
    Url.IsBare oddRequest.address ∧ Url.IsBare oddRequest.path ∧ oddRequest.params ≠ [] ∧
      oddRequest.bare.url = .ok metricsOfFirst ∧
      (∃ url, oddRequest.url = .ok url ∧ url.withoutQuery = metricsOfFirst ∧
        url.AsksWith [("", ""), ("a&b", "=é +%26"), ("", ""), ("#", "?")]) ∧
      ∃ url other : Url, url.withoutQuery = metricsOfFirst ∧ other.withoutQuery = metricsOfFirst ∧
        url.AsksWith [("query", "up"), ("start", "-8334601228800"), ("end", "-8334601228800"),
          ("step", "15")] ∧ url.render ≠ other.render := by
  have haddress : Url.IsBare oddRequest.address := by decide
  have hpath : Url.IsBare oddRequest.path := by decide
  have hparams : oddRequest.params ≠ [] := List.cons_ne_nil _ _
  have hbare : oddRequest.bare.url = .ok metricsOfFirst := by decide
  have hread : Url.read ("//" ++ oddRequest.address ++ "/api/v1/query_range") =
    .ok metricsOfFirst := by decide
  obtain ⟨hall, hmetrics, hdiffer⟩ := parameters_come_back
  obtain ⟨url, hurl, hsame, hasks⟩ :=
    hmetrics "r" oddRequest.address 5 ⟨.earliest, .earliest, 15⟩ "up" haddress _ hread
  obtain ⟨other, hother, hsame', -⟩ :=
    hmetrics "r" oddRequest.address 5 ⟨.earliest, .earliest, 15⟩ "up&step=1" haddress _ hread
  refine ⟨haddress, hpath, hparams, hbare, hall oddRequest haddress hpath hparams _ hbare,
    url, other, hsame, hsame', hasks, fun htext => ?_⟩
  have hname := (hdiffer _ _ _ _ _ _ _ _ _ _ _ _ haddress haddress hurl hother htext).1
  exact absurd hname (by decide)

end Inspection
