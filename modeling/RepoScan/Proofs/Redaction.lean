import RepoScan.Proofs.Text.Replace
import RepoScan.Redaction

/-!
# What redaction hides

A redacted secret shows a little of its two ends, with stars between them.  In a text whose secrets
are redacted, whatever lacks stars is therefore part of the text itself or of what a single end
shows.

* `redactWith_of_lt`, `redactWith_of_le` : the shape of a redacted secret;
* `Text.prefix_of_replaced` : what lacks stars at the beginning of a redacted text stood there
  before;
* `Text.not_infix_replaceAll_redact` : **a secret is hidden everywhere**, if no occurrence of it
  runs on into one of its own characters;
* `Text.infix_replaceAll_take_iff` : **a secret shows where a text is cut off inside of it**.
-/

namespace RepoScan

/-! ### The shape of a redacted secret -/

theorem redactWith_of_lt {head tail : Nat} {t : Text} (htail : 0 < tail)
    (h : head + tail < t.length) :
    redactWith head tail t =
      t.take head ++ (List.replicate (t.length - head - tail) ('*' : CodePoint) ++
        t.drop (t.length - tail)) := by
  have hne : t.isEmpty = false := by
    cases t with
    | nil => simp at h
    | cons => rfl
  have hlong : ¬ (t.length : Int) ≤ (head : Int) + (tail : Int) := by omega
  have hstars : ((t.length : Int) - head - tail).toNat = t.length - head - tail := by omega
  simp only [redactWith, hne, Bool.false_eq_true, if_false, hlong, hstars]
  rw [Text.slice_zero, Text.slice_neg htail, List.append_assoc]

theorem redactWith_of_le {head tail : Nat} {t : Text} (h : t.length ≤ head + tail) :
    redactWith head tail t = List.replicate t.length ('*' : CodePoint) := by
  have hshort : (t.length : Int) ≤ (head : Int) + (tail : Int) := by omega
  unfold redactWith
  cases t with
  | nil => rfl
  | cons c t => simp only [List.isEmpty_cons, Bool.false_eq_true, if_false, hshort, if_true]

/-- At either end at most four characters of a secret are shown, and there is a star between. -/
theorem exists_redact_eq {t : Text} (h : t ≠ []) :
    ∃ k stars : Nat, k ≤ 4 ∧ k < t.length ∧
      redact t = t.take k ++ ('*' : CodePoint) ::
        (List.replicate stars ('*' : CodePoint) ++ t.drop (t.length - k)) := by
  have hpos : 0 < t.length := List.length_pos_iff.mpr h
  by_cases hlong : 4 + 4 < t.length
  · refine ⟨4, t.length - 4 - 4 - 1, le_rfl, by omega, ?_⟩
    rw [← List.cons_append, ← List.replicate_succ,
      show t.length - 4 - 4 - 1 + 1 = t.length - 4 - 4 by omega]
    exact redactWith_of_lt (by decide) hlong
  · -- a short secret shows nothing
    refine ⟨0, t.length - 1, by omega, hpos, ?_⟩
    rw [← List.cons_append, ← List.replicate_succ, Nat.sub_add_cancel hpos, Nat.sub_zero,
      List.drop_length, List.append_nil, List.take_zero, List.nil_append]
    have hshort : t.length ≤ 4 + 4 := by omega
    exact redactWith_of_le hshort

namespace Text

/-! ### Redacted texts -/

variable {t m u w a b : Text}

theorem infix_of_infix_stars {stars : Nat} (hw : ('*' : CodePoint) ∉ w) (ha : a.length < w.length)
    (h : w <:+: a ++ ('*' : CodePoint) :: (List.replicate stars ('*' : CodePoint) ++ b)) :
    w <:+: b := by
  have notBefore : ¬ w <:+: a := fun h => absurd h.length_le (by omega)
  have hbehind := ((infix_append_cons_iff hw).mp h).resolve_left notBefore
  clear h
  induction stars with
  | zero => exact hbehind
  | succ n ih =>
    rw [List.replicate_succ, List.cons_append] at hbehind
    have notNil : ¬ w <:+: [] := by
      intro h
      rw [List.infix_nil.mp h] at ha
      exact Nat.not_lt_zero _ ha
    exact ih (((infix_append_cons_iff (a := []) hw).mp hbehind).resolve_left notNil)

theorem not_infix_redact (ht : t ≠ []) (hw : ('*' : CodePoint) ∉ w) (hlong : 4 < w.length) :
    ¬ w <:+: redact t := by
  obtain ⟨k, stars, hk, -, hredact⟩ := exists_redact_eq ht
  rw [hredact]
  intro h
  have hend := (infix_of_infix_stars hw (by simp; omega) h).length_le
  rw [List.length_drop] at hend
  omega

/-- What lacks stars at the beginning of a redacted text stood there before. -/
theorem prefix_of_replaced (ht : t ≠ []) (hw : ('*' : CodePoint) ∉ w)
    (h : Replaced t (redact t) m u) (hu : w <+: u) : w <+: m := by
  induction h generalizing w with
  | done => exact hu
  | @hit m u _ _ =>
    obtain ⟨k, stars, -, -, hredact⟩ := exists_redact_eq ht
    rw [hredact, List.append_assoc, List.cons_append] at hu
    have hshown : w <+: t.take k := (prefix_append_cons_iff hw).mp hu
    exact (hshown.trans (List.take_prefix k t)).trans (List.prefix_append t m)
  | @pass c m u _ _ ih =>
    obtain rfl | ⟨w, rfl, hw'⟩ := List.prefix_cons_iff.mp hu
    · exact List.nil_prefix
    · exact List.cons_prefix_cons.mpr ⟨rfl, ih (fun hc => hw (List.mem_cons_of_mem c hc)) hw'⟩

/-- No occurrence of `t` in `m` is followed by one of the characters of `S`. -/
def NeverBefore (S : CodePoint → Prop) (t m : Text) : Prop :=
  ∀ i < m.length, t <+: m.drop i → ∀ c ∈ m[i + t.length]?, ¬ S c

instance (S : CodePoint → Prop) [DecidablePred S] (t m : Text) : Decidable (NeverBefore S t m) :=
  inferInstanceAs (Decidable (∀ i < m.length, _ → _))

theorem NeverBefore.of_append {S : CodePoint → Prop} (h : NeverBefore S t (a ++ m)) :
    NeverBefore S t m := by
  intro i hi hp c hc
  refine h (a.length + i) (by simp; omega) ?_ c ?_
  · rwa [List.drop_length_add_append]
  · rwa [Nat.add_assoc, List.getElem?_append_right (by omega), Nat.add_sub_cancel_left]

theorem not_infix_redact_append (ht : t ≠ []) (hstar : ('*' : CodePoint) ∉ t) (hu : ¬ t <:+: u)
    (hfirst : ∀ c ∈ t, ¬ [c] <+: u) : ¬ t <:+: redact t ++ u := by
  obtain ⟨k, stars, -, hk, hredact⟩ := exists_redact_eq ht
  rw [hredact, List.append_assoc, List.cons_append, List.append_assoc]
  intro hin
  obtain hend | hin | ⟨x, y, hxy, hx, hy⟩ :=
    List.infix_append_iff.mp (infix_of_infix_stars hstar (by simp; omega) hin)
  · have hlong := hend.length_le
    rw [List.length_drop] at hlong
    omega
  · exact hu hin
  · -- the secret would begin in the end that is shown and go on behind it
    have hlen : t.length = x.length + y.length := by rw [← List.length_append, ← hxy]
    have hshown : x.length ≤ t.length - (t.length - k) := by
      rw [← List.length_drop]
      exact hx.length_le
    obtain ⟨c, y, rfl⟩ : ∃ c y', y = c :: y' := by
      refine List.exists_cons_of_ne_nil ?_
      rintro rfl
      rw [List.length_nil] at hlen
      omega
    have hc : c ∈ t := by simp [hxy]
    exact hfirst c hc (List.IsPrefix.trans ⟨y, rfl⟩ hy)

/-- A secret does not show in a redacted text. -/
theorem not_infix_of_replaced (ht : t ≠ []) (hstar : ('*' : CodePoint) ∉ t)
    (h : Replaced t (redact t) m u) (hm : NeverBefore (· ∈ t) t m) : ¬ t <:+: u := by
  induction h with
  | done => simpa using ht
  | @hit m u hrest ih =>
    refine not_infix_redact_append ht hstar (ih hm.of_append) fun c hc hu => ?_
    have hplain : ('*' : CodePoint) ∉ [c] := by
      intro h
      rw [List.mem_singleton.mp h] at hstar
      exact hstar hc
    obtain ⟨rest, rfl⟩ := prefix_of_replaced ht hplain hrest hu
    have hsome : 0 < (t ++ ([c] ++ rest)).length := by
      simp only [List.length_append, List.length_singleton]
      omega
    exact hm 0 hsome ⟨[c] ++ rest, rfl⟩ c (by simp) hc
  | @pass c m u hc hrest ih =>
    rw [List.infix_cons_iff, not_or]
    refine ⟨fun hp => hc (prefix_of_replaced ht hstar (.pass hc hrest) hp), ih ?_⟩
    exact NeverBefore.of_append (a := [c]) hm

/-- **A secret is hidden everywhere** in a text in which no occurrence of it runs on into one of its
own characters. -/
theorem not_infix_replaceAll_redact (ht : t ≠ []) (hstar : ('*' : CodePoint) ∉ t)
    (hm : NeverBefore (· ∈ t) t m) : ¬ t <:+: replaceAll t (redact t) m :=
  not_infix_of_replaced ht hstar ((replaced_iff ht).mpr rfl) hm

/-! ### Texts that are cut off -/

theorem infix_take_iff {n j : Nat} (h : n ≤ t.length) : t.take n <:+: t.take j ↔ n ≤ j := by
  constructor
  · intro hin
    have hlen := hin.length_le
    rw [List.length_take, List.length_take] at hlen
    omega
  · intro hn
    exact (List.take_prefix_take_left hn).isInfix

section Cut

/- A secret stands between two characters that it lacks, and neither what is before them nor what is
behind them holds the first five characters of the secret. -/
variable {x y : CodePoint} (hlong : 8 < t.length) (hstar : ('*' : CodePoint) ∉ t) (hx : x ∉ t)
  (hy : y ∉ t) (ha : ¬ t.take 5 <:+: a) (hb : ¬ t.take 5 <:+: b)

include hlong in
theorem not_infix_of_not_infix_take (h : ¬ t.take 5 <:+: a) : t ≠ [] ∧ ¬ t <:+: a := by
  refine ⟨?_, fun ht => h ((List.take_prefix 5 t).isInfix.trans ht)⟩
  rintro rfl
  simp at hlong

include hlong hstar hx hy ha hb in
theorem not_infix_replaceAll_whole (n : Nat) :
    ¬ t.take 5 <:+: replaceAll t (redact t) (a ++ x :: (t ++ (y :: b).take n)) := by
  have hlack : ∀ {c : CodePoint}, c ∉ t → c ∉ t.take 5 := fun hc h => hc (List.mem_of_mem_take h)
  obtain ⟨hne, hta⟩ := not_infix_of_not_infix_take hlong ha
  have notRedacted : ¬ t.take 5 <:+: redact t :=
    not_infix_redact hne (hlack hstar) (by simp; omega)
  have notBehind : ¬ t.take 5 <:+: redact t ++ (y :: b).take n := by
    cases n with
    | zero => simpa using notRedacted
    | succ n =>
      rw [List.take_succ_cons, infix_append_cons_iff (hlack hy), not_or]
      exact ⟨notRedacted, fun h => hb (h.trans (List.take_prefix n b).isInfix)⟩
  have notCut : ¬ t <:+: (y :: b).take n := fun h =>
    notBehind (((List.take_prefix 5 t).isInfix.trans h).trans List.infix_append_right)
  rw [replaceAll_append_cons hx hne, replaceAll_append_old hne, replaceAll_of_absent hta,
    replaceAll_of_absent notCut, infix_append_cons_iff (hlack hx), not_or]
  exact ⟨ha, notBehind⟩

include hlong hx ha in
/-- A secret that is cut off is not found, and shows. -/
theorem infix_replaceAll_cut_iff {n : Nat} (hn : n < t.length) :
    t.take 5 <:+: replaceAll t (redact t) (a ++ x :: t.take n) ↔ 5 ≤ n := by
  have notHere : ¬ t <:+: a ++ x :: t.take n := by
    rw [infix_append_cons_iff hx, not_or]
    refine ⟨(not_infix_of_not_infix_take hlong ha).2, fun h => ?_⟩
    have hlen := h.length_le
    rw [List.length_take] at hlen
    omega
  rw [replaceAll_of_absent notHere,
    infix_append_cons_iff fun h => hx (List.mem_of_mem_take h), infix_take_iff (by omega)]
  exact or_iff_right ha

include hlong hstar hx hy ha hb in
/-- **The first five characters of a secret show in a text that is cut off** exactly where the cut
goes through the secret and leaves them. -/
theorem infix_replaceAll_take_iff (limit : Nat) :
    t.take 5 <:+: replaceAll t (redact t) ((a ++ x :: (t ++ y :: b)).take limit) ↔
      a.length + 1 + 5 ≤ limit ∧ limit < a.length + 1 + t.length := by
  by_cases hbefore : limit ≤ a.length
  · have htake : (a ++ x :: (t ++ y :: b)).take limit = a.take limit :=
      List.take_append_of_le_length hbefore
    have notHere : ¬ t.take 5 <:+: a.take limit := fun h =>
      ha (h.trans (List.take_prefix limit a).isInfix)
    rw [htake, replaceAll_of_absent (not_infix_of_not_infix_take hlong notHere).2]
    exact iff_of_false notHere (by omega)
  · obtain ⟨n, rfl⟩ : ∃ n, limit = a.length + (n + 1) := ⟨limit - a.length - 1, by omega⟩
    rw [List.take_length_add_append, List.take_succ_cons]
    by_cases hwhole : t.length ≤ n
    · obtain ⟨n, rfl⟩ := Nat.exists_eq_add_of_le hwhole
      rw [List.take_length_add_append]
      exact iff_of_false (not_infix_replaceAll_whole hlong hstar hx hy ha hb n) (by omega)
    · rw [List.take_append_of_le_length (by omega),
        infix_replaceAll_cut_iff hlong hx ha (by omega)]
      omega

end Cut

end Text

end RepoScan
