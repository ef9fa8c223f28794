import RepoScan.Proofs.Detection.Locality
import RepoScan.Proofs.Path
import RepoScan.Proofs.Text.Replace

/-!
# Line ends do not matter

A body whose lines end with a carriage return and a line feed is scanned like the same body with
line feeds only.  The lines are cut at line feeds, and what a line loses at its end is the whole run
of carriage returns there, so it makes no difference how many of them the body had already.

* `bodyLines_replaceAll` : the lines of both bodies are the same;
* `isScannable_replaceAll` : both bodies are scanned, if the longer one is not too long;
* `scanBody_replaceAll` : **the findings in both bodies are the same**.
-/

namespace RepoScan

namespace Text

theorem replaceAll_feed_of_notMem {t : Text} (h : ('\n' : CodePoint) ∉ t) (new : Text) :
    replaceAll "\n" new t = t := by
  refine replaceAll_of_absent fun hin => h ?_
  exact hin.subset List.mem_cons_self

theorem replaceAll_append_feed {l : Text} (h : ('\n' : CodePoint) ∉ l) (new t : Text) :
    replaceAll "\n" new (l ++ ('\n' : CodePoint) :: t) = l ++ new ++ replaceAll "\n" new t := by
  have line := replaceAll_feed_of_notMem h new
  have feed : replaceAll "\n" new (('\n' : CodePoint) :: t) = new ++ replaceAll "\n" new t :=
    replaceAll_append_old (List.cons_ne_nil _ []) t
  have single : ("\n" : Text) = [('\n' : CodePoint)] := rfl
  rw [single, replaceAll_singleton] at line feed ⊢
  rw [List.flatMap_append, line, feed, replaceAll_singleton, List.append_assoc]

theorem length_replaceAll_feed (t : Text) :
    (replaceAll "\n" "\r\n" t).length = t.length + t.count ('\n' : CodePoint) := by
  have single : ("\n" : Text) = [('\n' : CodePoint)] := rfl
  rw [single, replaceAll_singleton]
  induction t with
  | nil => rfl
  | cons c t ih =>
    rw [List.flatMap_cons, List.length_append, ih, List.length_cons, List.count_cons]
    by_cases hc : c = ('\n' : CodePoint)
    · have two : (("\r\n" : Text)).length = 2 := rfl
      rw [if_pos hc, two, if_pos (beq_iff_eq.mpr hc)]
      omega
    · rw [if_neg hc, List.length_singleton, if_neg (by simpa using hc)]
      omega

end Text

/-- A line loses all carriage returns at its end, also one that was put there. -/
theorem bodyLines_replaceAll (body : Text) :
    bodyLines (Text.replaceAll "\n" "\r\n" body) = bodyLines body := by
  -- from the first line on; the last one has no end that could change
  induction body using Text.splitOn_induction '\n' with
  | last t h => rw [Text.replaceAll_feed_of_notMem h]
  | more l t hl ih =>
    have ended : l ++ ("\r\n" : Text) ++ Text.replaceAll "\n" "\r\n" t =
        (l ++ [('\r' : CodePoint)]) ++ ('\n' : CodePoint) :: Text.replaceAll "\n" "\r\n" t := by
      rw [List.append_assoc, List.append_assoc]
      rfl
    have line : bodyLines (l ++ [('\r' : CodePoint)]) = bodyLines l := by
      have hreturn : ('\n' : CodePoint) ∉ l ++ [('\r' : CodePoint)] := by
        rw [List.mem_append, not_or]
        exact ⟨hl, by decide⟩
      have same := Text.withoutReturns_append_return l
      rw [bodyLines, bodyLines, Text.splitOn_of_notMem hreturn, Text.splitOn_of_notMem hl]
      exact congrArg (fun line => [line]) same
    rw [Text.replaceAll_append_feed hl, ended, bodyLines_join, bodyLines_join, line, ih]

theorem isBinaryBody_replaceAll (body : Text) :
    isBinaryBody (Text.replaceAll "\n" "\r\n" body) = isBinaryBody body := by
  have single : ("\n" : Text) = [('\n' : CodePoint)] := rfl
  rw [single, Text.replaceAll_singleton, isBinaryBody, isBinaryBody, List.any_flatMap]
  refine congrArg (List.any body) (funext fun c => ?_)
  by_cases hc : c = ('\n' : CodePoint)
  · rw [if_pos hc, hc]
    decide
  · rw [if_neg hc, List.any_cons, List.any_nil, Bool.or_false]

/-- The body with line feeds only is scanned where the longer one is not too long. -/
theorem isScannable_replaceAll {body : Text}
    (h : body.length + body.count ('\n' : CodePoint) ≤ maxBodyLength) :
    isScannable (Text.replaceAll "\n" "\r\n" body) = isScannable body := by
  have long : (Text.replaceAll "\n" "\r\n" body).length ≤ maxBodyLength := by
    rwa [Text.length_replaceAll_feed]
  have short : body.length ≤ maxBodyLength := by omega
  rw [isScannable, isScannable, isBinaryBody_replaceAll, decide_eq_true long, decide_eq_true short]

/-- **Line ends do not matter.**  A body gives the same findings, with the same line numbers and the
same lines shown, when every line feed in it is replaced by a carriage return and a line feed.  The
body may hold any characters, carriage returns included; only the length of the replaced one is
limited. -/
theorem scanBody_replaceAll {body : Text}
    (h : body.length + body.count ('\n' : CodePoint) ≤ maxBodyLength) (path : Text) :
    scanBody (Text.replaceAll "\n" "\r\n" body) path = scanBody body path := by
  rw [scanBody, scanBody, isScannable_replaceAll h, bodyLines_replaceAll]

/-- A body with carriage returns of its own, before a line feed, within a line and at the end. -/
theorem scanBody_replaceAll_mixedEnds :
    let body : Text := "\r\nid\r = AKIA0123456789ABCDEF\r\r\n\r"
    body.length + body.count ('\n' : CodePoint) ≤ maxBodyLength ∧
      scanBody (Text.replaceAll "\n" "\r\n" body) "keys.yml" = scanBody body "keys.yml" ∧
      (scanBody body "keys.yml").map Finding.line = [2] := by
  intro body
  have h : body.length + body.count ('\n' : CodePoint) ≤ maxBodyLength := by decide +kernel
  refine ⟨h, scanBody_replaceAll h "keys.yml", ?_⟩
  decide +kernel

end RepoScan
