import RepoScan.Proofs.Config
import RepoScan.Proofs.Detector.External

/-!
# The manifest of a configuration

Whatever a document holds, the settings of a configuration have the types that they are used at,
since each is converted when it is read.  The manifest alone is taken as it is, and a value that is
no text makes no path: the dependency audit fails before it looks for the manifest, so it reports
nothing.

* `Detector.avoidsPath_dependencies` : an audit whose manifest is a text does not fail this way;
* `Detector.collect_dependencies_of_not_text` : it contributes nothing where the manifest is none;
* `Config.manifest_isText_iff` : the manifest is a text unless the document gives another value;
* `Config.reachesManifest_iff` : **when the audit of a configuration reaches its manifest**.
-/

namespace RepoScan

open Yaml (Place)

/-! ### The audit -/

namespace Detector

theorem AuditFault.ne_notPath {e : Failure} (h : AuditFault e) (type : Text) :
    e ≠ .notPath type := by
  cases h with
  | path => exact nofun
  | template => exact nofun
  | command h =>
    cases h with
    | denied d => cases d <;> exact nofun
    | _ => exact nofun
  | output h => cases h <;> exact nofun
  | report h => cases h <;> exact nofun

variable (ps : Programs) (command : List Text) {manifest : Place} (statuses : List Int)
  (limit : Binary64) (t : Target)

/-- The audit does not fail for the path of a manifest that is a text. -/
theorem avoidsPath_dependencies {m : Text} (hm : manifest.part = .scalar (.text m)) (type : Text) :
    (((dependencies command manifest statuses limit).detect t).run ps).result ≠
      .error (.notPath type) := by
  have given : Fails (fun e => ∀ type, e ≠ .notPath type) (manifestText manifest) := by
    simp only [manifestText, hm]
    exact fails_ok m
  have careful := careful_dependencies t command manifest statuses limit given
    fun _ => AuditFault.ne_notPath
  obtain ⟨a, ends⟩ := (careful.only ps).course.2
  have own : Failure.notPath type ≠ .calledOff := nofun
  intro he
  rw [Task.result_run_eq_error_iff ps own] at he
  rw [he] at ends
  cases a with
  | set => exact ends type rfl
  | off => exact ends
  | rung => exact ends

/-- With a manifest that is no text the audit fails before it does anything. -/
theorem detect_dependencies_of_not_text (h : ∀ m, manifest.part ≠ .scalar (.text m))
    {place : Checkout} (ht : t.checkout = some place) :
    (dependencies command manifest statuses limit).detect t =
      Task.fail (.notPath manifest.typeName) := by
  have fails : manifestText manifest = .error (.notPath manifest.typeName) := by
    unfold manifestText
    split
    · rename_i hm
      exact absurd hm (h _)
    · rfl
  show onCheckout t _ = _
  rw [onCheckout, ht]
  dsimp only
  rw [fails]
  rfl

/-- It contributes nothing then, and starts no process. -/
theorem collect_dependencies_of_not_text (h : ∀ m, manifest.part ≠ .scalar (.text m)) :
    (((dependencies command manifest statuses limit).collect t).run ps).result = .ok [] ∧
      ∀ c, .start c ∉
        (((dependencies command manifest statuses limit).collect t).run ps).events := by
  cases ht : t.checkout with
  | none =>
    have lacks : (dependencies command manifest statuses limit).skips t = true := by
      rw [skips, ht]
      rfl
    rw [result_run_collect, found_of_skips ps _ t lacks, collect_of_skips _ t lacks]
    refine ⟨rfl, fun c hc => ?_⟩
    cases List.mem_singleton.mp hc
  | some place =>
    have fails := detect_dependencies_of_not_text command statuses limit t h ht
    -- whether or not the limit leaves any time
    have late : ∃ h, (((dependencies command manifest statuses limit).limited t).course
        ps).result = .error h := by
      show ∃ h, (((Detector.detect _ t).within (some limit)).course ps).result = .error h
      rw [fails]
      cases hl : limit.isNoTime with
      | true =>
        rw [Task.within_of_isNoTime hl]
        exact ⟨_, rfl⟩
      | false =>
        rw [Task.course_within ps hl]
        exact ⟨_, rfl⟩
    obtain ⟨h, hh⟩ := late
    have only : ((dependencies command manifest statuses limit).detect t).Only ps
        (fun e => ∀ c, e ≠ .start c) fun _ => True := by
      rw [fails]
      exact trivial
    rw [result_run_collect, found_of_error ps _ t hh]
    exact ⟨rfl, fun c hc => (only_collect only fun _ _ => nofun).course.1 _ hc c rfl⟩

/-- The dependency audit that a configuration asks for. -/
def audit (c : Config) : Detector :=
  dependencies c.auditCommand c.manifest c.auditStatuses c.detectorLimit

end Detector

namespace Config

variable {fs : Files} {room : Nat} {path : Path} {env : Environment} {top : Place}
  {es : List (Value × Place)} {c : Config}

theorem manifest_of_load (hdoc : fs.document? room path = .ok (some top))
    (hes : top.entries? = some es) (h : (load room fs (some path) env).result = .ok c) :
    c.manifest = (given? es .manifest).getD (.ofPart (.scalar (.text "package.json"))) := by
  have settled := setting_of_load hdoc hes h .manifest
  -- no variable sets the manifest
  rw [Settles, show override? env .manifest = none from rfl] at settled
  generalize given? es .manifest = v? at settled ⊢
  cases v? with
  | none => exact Setting.manifest.inj settled
  | some v => exact (Setting.manifest.inj (Except.ok.inj settled)).symm

/-- The manifest is a text unless the document gives another value. -/
theorem manifest_isText_iff (hdoc : fs.document? room path = .ok (some top))
    (hes : top.entries? = some es) (h : (load room fs (some path) env).result = .ok c) :
    (∃ m, c.manifest.part = .scalar (.text m)) ↔
      ∀ v, given? es .manifest = some v → ∃ m, v.part = .scalar (.text m) := by
  rw [manifest_of_load hdoc hes h]
  cases given? es .manifest with
  | none => exact iff_of_true ⟨_, rfl⟩ nofun
  | some v =>
    constructor
    · rintro hm _ ⟨⟩
      exact hm
    · exact fun hall => hall v rfl

/-- The manifest is a text, as it has to be to be of use, and the audit never fails for its path. -/
structure ReachesManifest (c : Config) : Prop where
  isText : ∃ m, c.manifest.part = .scalar (.text m)
  avoidsPath : ∀ ps t type,
    (((Detector.audit c).detect t).run ps).result ≠ .error (.notPath type)

/-- **When the audit of a configuration reaches its manifest**: the document gives a text for it, or
nothing.  Otherwise no audit of a clone gets there, and each contributes nothing without starting
anything. -/
theorem reachesManifest_iff (hdoc : fs.document? room path = .ok (some top))
    (hes : top.entries? = some es) (h : (load room fs (some path) env).result = .ok c) :
    (c.ReachesManifest ↔ ∀ v, given? es .manifest = some v → ∃ m, v.part = .scalar (.text m)) ∧
    (¬ c.ReachesManifest → ∀ ps t,
      (∀ place, t.checkout = some place → (((Detector.audit c).detect t).run ps).result =
        .error (.notPath c.manifest.typeName)) ∧
      (((Detector.audit c).collect t).run ps).result = .ok [] ∧
      ∀ command, .start command ∉ (((Detector.audit c).collect t).run ps).events) := by
  have reaches : c.ReachesManifest ↔ ∃ m, c.manifest.part = .scalar (.text m) :=
    ⟨fun h => h.isText, fun ⟨m, hm⟩ =>
      ⟨⟨m, hm⟩, fun ps t => Detector.avoidsPath_dependencies ps _ _ _ t hm⟩⟩
  refine ⟨reaches.trans (manifest_isText_iff hdoc hes h), fun hnot ps t => ?_⟩
  rw [reaches, not_exists] at hnot
  refine ⟨fun place ht => ?_, Detector.collect_dependencies_of_not_text ps _ _ _ t hnot⟩
  rw [Detector.audit, Detector.detect_dependencies_of_not_text _ _ _ t hnot ht]
  rfl

/-- A document that gives a text for the manifest. -/
theorem reachesManifest_text : ∃ c,
    (load 985 (sampleFiles "manifest_path: app/package.json\n") (some samplePath) []).result =
      .ok c ∧ c.ReachesManifest := by
  have hdoc : sampleIs "manifest_path: app/package.json\n" [.map [(1, 2)],
      .scalar (.text "manifest_path"), .scalar (.text "app/package.json")] = true := by
    simp only [sampleIs, Files.document?, Yaml.Document.read_eq]
    decide +kernel
  have hdoc := document?_of_sampleIs hdoc
  obtain ⟨c, hc⟩ := (exists_load_iff hdoc rfl []).mpr (List.forall_mem_singleton.mpr ⟨_, rfl⟩)
  refine ⟨c, hc, (reachesManifest_iff hdoc rfl hc).1.mpr fun v hv => ?_⟩
  obtain rfl := Option.some.inj hv
  exact ⟨_, rfl⟩

/-- A number for the manifest is taken as it is, and makes every audit fail. -/
theorem not_reachesManifest_number : ∃ c,
    (load 985 (sampleFiles "manifest_path: 5\n") (some samplePath) []).result = .ok c ∧
      c.manifest.part = .scalar (.int 5) ∧ ¬ c.ReachesManifest := by
  have hdoc : sampleIs "manifest_path: 5\n" [.map [(1, 2)], .scalar (.text "manifest_path"),
      .scalar (.int 5)] = true := by
    simp only [sampleIs, Files.document?, Yaml.Document.read_eq]
    decide +kernel
  have hdoc := document?_of_sampleIs hdoc
  obtain ⟨c, hc⟩ := (exists_load_iff hdoc rfl []).mpr (List.forall_mem_singleton.mpr ⟨_, rfl⟩)
  have manifest : c.manifest.part = .scalar (.int 5) := by
    rw [manifest_of_load hdoc rfl hc]
    rfl
  refine ⟨c, hc, manifest, fun h => ?_⟩
  obtain ⟨m, hm⟩ := h.isText
  rw [manifest] at hm
  cases hm

end Config

end RepoScan
