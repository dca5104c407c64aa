/-
# NestAmqp.Gateway.Prometheus — the counters on a metrics page.

`toPrometheus` prints three metrics, one after the other: two comment lines, then one sample for each
counter, with its method, its route and its name as labels.  Whatever text those are, the page reads back
under the exposition grammar as exactly that: line feeds have become spaces, and nothing else has changed.
-/
import NestAmqp.Js.Value
import NestAmqp.Lib.Exposition

namespace NestAmqp.Gateway.Prometheus

open NestAmqp.Js
open NestAmqp.Lib.Exposition

/-! ## The page -/

/-- `HttpMetric`, the fields that are printed. -/
structure HttpMetric where
  method : String
  route : String
  name : Option String := none
  count : Int
  errorCount : Int
  totalDurationMs : Int
  deriving DecidableEq, Repr

/-- `text.replace(/c/g, by)` for one character. -/
def replaceAll (c : Char) (by' : List Char) (text : List Char) : List Char :=
  text.flatMap fun d => if d = c then by' else [d]

/-- `escapeLabel`. -/
def escapeLabel (value : String) : String :=
  String.ofList (replaceAll '\n' [' '] (replaceAll '"' ['\\', '"'] (replaceAll '\\' ['\\', '\\'] value.toList)))

/-- `labels(m)`. -/
def labelText (m : HttpMetric) : String :=
  "method=\"" ++ escapeLabel m.method ++ "\",route=\"" ++ escapeLabel m.route ++ "\"" ++
    (if truthyText m.name then ",name=\"" ++ escapeLabel (template m.name) ++ "\"" else "")

def sampleText (metric : String) (value : HttpMetric → Int) (m : HttpMetric) : String :=
  metric ++ "\x7b" ++ labelText m ++ "\x7d " ++ toString (value m)

/-- The lines, before they are joined. -/
def lines (counters : List HttpMetric) : List String :=
  ["# HELP gateway_requests_total Total HTTP requests handled by the gateway.",
   "# TYPE gateway_requests_total counter"] ++
    counters.map (sampleText "gateway_requests_total" HttpMetric.count) ++
  ["# HELP gateway_request_errors_total Error responses (status >= 400).",
   "# TYPE gateway_request_errors_total counter"] ++
    counters.map (sampleText "gateway_request_errors_total" HttpMetric.errorCount) ++
  ["# HELP gateway_request_duration_ms_sum Total request duration in milliseconds.",
   "# TYPE gateway_request_duration_ms_sum counter"] ++
    counters.map (sampleText "gateway_request_duration_ms_sum" HttpMetric.totalDurationMs)

/-- `toPrometheus`. -/
def toPrometheus (counters : List HttpMetric) : String := "\n".intercalate (lines counters) ++ "\n"

/-! ## What it says -/

/-- The text on one line. -/
def oneLine (text : String) : String := String.ofList (text.toList.map fun c => if c = '\n' then ' ' else c)

/-- The labels of a counter. -/
def labels (m : HttpMetric) : List (String × String) :=
  [("method", oneLine m.method), ("route", oneLine m.route)] ++
    if truthyText m.name then [("name", oneLine (template m.name))] else []

/-- The sample of a counter. -/
def sampleOf (metric : String) (value : HttpMetric → Int) (m : HttpMetric) : Line :=
  .sample { metric, labels := labels m, value := value m }

/-- The three replacements quote the text on one line: the backslashes come first, so that none of those
the quotes get is doubled. -/
theorem escapeLabel_eq (value : String) :
    (escapeLabel value).toList = quote (oneLine value).toList := by
  unfold escapeLabel oneLine
  rw [String.toList_ofList, String.toList_ofList]
  induction value.toList with
  | nil => rfl
  | cons c cs ih =>
      rw [List.map_cons]
      simp only [replaceAll, quote, List.flatMap_cons, List.flatMap_append] at ih ⊢
      rw [ih]
      by_cases hslash : c = '\\'
      · subst hslash
        rfl
      · by_cases hquote : c = '"'
        · subst hquote
          rfl
        · by_cases hline : c = '\n'
          · subst hline
            rfl
          · simp [hslash, hquote, hline]

/-- The labels are printed as the grammar writes them. -/
theorem labelText_eq (m : HttpMetric) :
    (labelText m).toList = [','].intercalate ((labels m).map renderLabel) := by
  unfold labelText labels
  split
  · simp only [String.toList_append, escapeLabel_eq, List.cons_append, List.nil_append, List.map_cons,
      List.map_nil, List.intercalate_cons_cons, List.intercalate_singleton, renderLabel]
    simp
  · simp only [String.toList_append, escapeLabel_eq, List.cons_append, List.nil_append, List.map_cons,
      List.map_nil, List.intercalate_cons_cons, List.intercalate_singleton, renderLabel]
    simp

theorem sampleText_eq (metric : String) (value : HttpMetric → Int) (m : HttpMetric) :
    (sampleText metric value m).toList = renderSample metric (labels m) (value m) := by
  unfold sampleText renderSample
  simp only [String.toList_append, labelText_eq, List.append_assoc]
  rfl

/-- The page, as it should read. -/
def page (counters : List HttpMetric) : List Line :=
  [.help "gateway_requests_total" "Total HTTP requests handled by the gateway.",
   .type "gateway_requests_total" "counter"] ++
    counters.map (sampleOf "gateway_requests_total" HttpMetric.count) ++
  [.help "gateway_request_errors_total" "Error responses (status >= 400).",
   .type "gateway_request_errors_total" "counter"] ++
    counters.map (sampleOf "gateway_request_errors_total" HttpMetric.errorCount) ++
  [.help "gateway_request_duration_ms_sum" "Total request duration in milliseconds.",
   .type "gateway_request_duration_ms_sum" "counter"] ++
    counters.map (sampleOf "gateway_request_duration_ms_sum" HttpMetric.totalDurationMs)

/-- A line that stands for a line of the page: it is one line, and reads as that. -/
def Reads (text : String) (line : Line) : Prop := '\n' ∉ text.toList ∧ readLine text.toList = some line

theorem labels_ne_nil (m : HttpMetric) : labels m ≠ [] := List.cons_ne_nil _ _

theorem isName_labels (m : HttpMetric) : ∀ label ∈ labels m, IsName labelStart labelChar label.1 := by
  intro label hlabel
  unfold labels at hlabel
  have hname : label.1 = "method" ∨ label.1 = "route" ∨ label.1 = "name" := by
    rcases List.mem_append.mp hlabel with hfixed | hnamed
    · simp only [List.mem_cons, List.not_mem_nil, or_false] at hfixed
      rcases hfixed with rfl | rfl
      · exact .inl rfl
      · exact .inr (.inl rfl)
    · split at hnamed
      · rw [List.mem_singleton.mp hnamed]
        exact .inr (.inr rfl)
      · cases hnamed
  rcases hname with h | h | h <;> rw [h] <;> decide

/-- **One sample.**  No label content leaves its quotes. -/
theorem reads_sampleText {metric : String} (hmetric : IsName metricStart metricChar metric)
    (value : HttpMetric → Int) (m : HttpMetric) :
    Reads (sampleText metric value m) (sampleOf metric value m) := by
  unfold Reads
  rw [sampleText_eq]
  exact ⟨newline_not_mem_renderSample hmetric (isName_labels m) _,
    readLine_renderSample hmetric (labels_ne_nil m) (isName_labels m) _⟩

theorem reads_samples {metric : String} (hmetric : IsName metricStart metricChar metric)
    (value : HttpMetric → Int) (counters : List HttpMetric) :
    List.Forall₂ Reads (counters.map (sampleText metric value)) (counters.map (sampleOf metric value)) := by
  rw [List.forall₂_map_left_iff, List.forall₂_map_right_iff, List.forall₂_same]
  exact fun m _ => reads_sampleText hmetric value m

theorem reads_lines (counters : List HttpMetric) : List.Forall₂ Reads (lines counters) (page counters) := by
  have hcomments {t u : String} {k l : Line} (ht : Reads t k) (hu : Reads u l) :
      List.Forall₂ Reads [t, u] [k, l] := .cons ht (.cons hu .nil)
  unfold lines page
  refine List.rel_append (List.rel_append (List.rel_append (List.rel_append (List.rel_append ?_ ?_) ?_)
    ?_) ?_) (reads_samples (by decide) _ _)
  · exact hcomments ⟨by decide, by decide⟩ ⟨by decide, by decide⟩
  · exact reads_samples (by decide) _ _
  · exact hcomments ⟨by decide, by decide⟩ ⟨by decide, by decide⟩
  · exact reads_samples (by decide) _ _
  · exact hcomments ⟨by decide, by decide⟩ ⟨by decide, by decide⟩

/-- **The page is faithful.**  Read under the exposition grammar it is, for each of the three metrics and
in order, its two comments and one sample for each counter, with the label values the counter has (on one
line) and its value. -/
theorem toPrometheus_faithful (counters : List HttpMetric) :
    readPage (toPrometheus counters) = some (page counters ++ [.blank]) := by
  have hreads := reads_lines counters
  refine readPage_lines (by simp [lines]) ?_ (hreads.imp fun _ _ h => h.2)
  intro t ht
  obtain ⟨i, hi⟩ := List.mem_iff_getElem?.mp ht
  obtain ⟨hlength, hall⟩ := List.forall₂_iff_get.mp hreads
  obtain ⟨hlt, hget⟩ := List.getElem?_eq_some_iff.mp hi
  have h := (hall i hlt (hlength ▸ hlt)).1
  rw [List.get_eq_getElem, hget] at h
  exact h

end NestAmqp.Gateway.Prometheus
