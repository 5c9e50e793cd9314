import PromqlAssist.Template.Basic

/-!
# Query templates on offer

Whole queries for common questions: rates, ratios, quantiles and the state of targets.
-/

namespace PromqlAssist.Template

/-- Every template, in the order in which they are offered and recognised. -/
def builtin : List Template :=
  [⟨"request_rate", "Per-second request rate, summed per instance",
    "sum(rate($\x7b1:metric\x7d\x7bjob=\"$\x7b2:job\x7d\"\x7d[$\x7b3:range\x7d])) by ($\x7b4:group\x7d)",
     [⟨"metric", .metric, "http_requests_total", false⟩,
      ⟨"job", .labelValue, "api", false⟩,
      ⟨"range", .range, "5m", false⟩,
      ⟨"group", .labelName, "instance", true⟩]⟩,
   ⟨"error_ratio", "Share of requests answered with a matching status",
    "sum(rate($\x7b1:metric\x7d\x7bstatus=~\"$\x7b2:status\x7d\"\x7d[$\x7b3:range\x7d])) / sum(rate($\x7b4:total\x7d[$\x7b5:total_range\x7d]))",
     [⟨"metric", .metric, "http_requests_total", false⟩,
      ⟨"status", .labelValue, "5..", false⟩,
      ⟨"range", .range, "5m", false⟩,
      ⟨"total", .metric, "http_requests_total", false⟩,
      ⟨"total_range", .range, "5m", false⟩]⟩,
   ⟨"latency_quantile", "Latency quantile from a histogram",
    "histogram_quantile($\x7b1:quantile\x7d, sum(rate($\x7b2:metric\x7d[$\x7b3:range\x7d])) by (le))",
     [⟨"quantile", .number, "0.95", false⟩,
      ⟨"metric", .metric, "http_request_duration_seconds_bucket", false⟩,
      ⟨"range", .range, "5m", false⟩]⟩,
   ⟨"cpu_usage", "CPU busy percentage per instance",
    "100 - (avg by ($\x7b1:group\x7d) (rate($\x7b2:metric\x7d\x7bmode=\"idle\"\x7d[$\x7b3:range\x7d])) * 100)",
     [⟨"group", .labelName, "instance", true⟩,
      ⟨"metric", .metric, "node_cpu_seconds_total", false⟩,
      ⟨"range", .range, "5m", false⟩]⟩,
   ⟨"memory_usage", "Memory used as a percentage of total",
    "(1 - $\x7b1:available\x7d / $\x7b2:total\x7d) * 100",
     [⟨"available", .metric, "node_memory_MemAvailable_bytes", false⟩,
      ⟨"total", .metric, "node_memory_MemTotal_bytes", false⟩]⟩,
   ⟨"top_k", "Top k series by request rate",
    "topk($\x7b1:k\x7d, sum(rate($\x7b2:metric\x7d[$\x7b3:range\x7d])) by ($\x7b4:group\x7d))",
     [⟨"k", .number, "5", false⟩,
      ⟨"metric", .metric, "http_requests_total", false⟩,
      ⟨"range", .range, "5m", false⟩,
      ⟨"group", .labelName, "instance", true⟩]⟩,
   ⟨"target_down", "Scrape targets that are down",
    "up\x7bjob=\"$\x7b1:job\x7d\"\x7d == 0",
     [⟨"job", .labelValue, "api", false⟩]⟩]

def find? (name : String) : Option Template :=
  builtin.find? fun t => t.name = name

end PromqlAssist.Template
