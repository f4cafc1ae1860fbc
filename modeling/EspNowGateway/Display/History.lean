import EspNowGateway.Foundations.SentinelScan
import EspNowGateway.Display.Loop

/-! The history of a row: the last hundred temperatures behind empty places, and the scan for
the least and the greatest of them. -/
namespace EspNowGateway.Display
open BinaryFloat Radio SentinelScan

instance : DecidableRel (Function.swap Binary.Lt : F32 → F32 → Prop) :=
  fun x y => inferInstanceAs (Decidable (y.Lt x))

/-- A reset history after any number of temperatures. -/
def historyOf (temps : List F32) : History := temps.foldl addToHistory resetHistory

/-- The temperatures among the entries. -/
def temperatures (entries : List F32) : List F32 := entries.filter fun t => ¬ t.Same noTemp

/-- What `findInHistory` is to report of the temperatures `values`. -/
structure Extremes (values : List F32) (minTemp maxTemp : F32) : Prop where
  none : values = [] → minTemp = noTemp ∧ maxTemp = noTemp
  least : values ≠ [] → minTemp ∈ values ∧ ∀ t ∈ values, minTemp.Le t
  greatest : values ≠ [] → maxTemp ∈ values ∧ ∀ t ∈ values, t.Le maxTemp

/-- Empty places in front, then the last temperatures in their order. -/
theorem historyOf_toList (temps : List F32) : (historyOf temps).toList =
    List.replicate (historySize - temps.length) noTemp ++ temps.drop (temps.length - historySize) := by
  have hpush : addToHistory = SlidingWindow.push := by
    funext arr temp
    exact addToHistory_eq_push arr temp
  rw [historyOf, hpush, SlidingWindow.toList_pushAll, resetHistory, Vector.toList_replicate,
    List.drop_append, List.drop_replicate, List.length_replicate]

/-- The one loop of `findInHistory` is two scans over the same entries. -/
private theorem findInHistory_eq_scans (historyArr : History) : findInHistory historyArr =
    (historyArr.toList.foldl (keep Binary.Lt fun t => t.Same noTemp) noTemp,
      historyArr.toList.foldl (keep (Function.swap Binary.Lt) fun t => t.Same noTemp) noTemp) := by
  rw [findInHistory]
  apply List.foldl_hom₂
  intro minTemp maxTemp entry
  rw [findStep, keep, keep]
  split <;> rfl

/-- Over any entries without a NaN the two results are extremes of the temperatures. -/
theorem findInHistory_extremes (historyArr : History) (hnan : ∀ t ∈ historyArr.toList, ¬ t.IsNaN) :
    Extremes (temperatures historyArr.toList) (findInHistory historyArr).1
      (findInHistory historyArr).2 := by
  have hsentinel : noTemp.Same noTemp := same_noTemp_iff.mpr rfl
  have hnumber : ∀ t ∈ temperatures historyArr.toList, ¬ t.IsNaN :=
    fun t ht => hnan t (List.mem_of_mem_filter ht)
  have hmin : Best Binary.Lt noTemp (temperatures historyArr.toList) _ :=
    scan_best _ (fun t => t.Same noTemp) hsentinel historyArr.toList
  have hmax : Best (Function.swap Binary.Lt) noTemp (temperatures historyArr.toList) _ :=
    scan_best _ (fun t => t.Same noTemp) hsentinel historyArr.toList
  rw [findInHistory_eq_scans]
  constructor
  · intro hnil
    rw [hnil] at hmin hmax
    exact ⟨hmin.of_nil, hmax.of_nil⟩
  · intro hne
    obtain ⟨hmem, hbest⟩ := hmin.of_ne_nil hne
    exact ⟨hmem, fun t ht => Binary.le_of_not_lt (hnumber _ hmem) (hnumber t ht) (hbest t ht)⟩
  · intro hne
    obtain ⟨hmem, hbest⟩ := hmax.of_ne_nil hne
    exact ⟨hmem, fun t ht => Binary.le_of_not_lt (hnumber t ht) (hnumber _ hmem) (hbest t ht)⟩

/-- After any number of temperatures the history ends with the last hundred of them, and its two
extremes are theirs. -/
theorem history_extremes (temps : List F32) (hnan : ∀ t ∈ temps, ¬ t.IsNaN) :
    let last := temps.drop (temps.length - historySize)
    last.length = min temps.length historySize ∧
      (historyOf temps).toList =
        List.replicate (historySize - last.length) noTemp ++ last ∧
      Extremes (temperatures last) (findInHistory (historyOf temps)).1
        (findInHistory (historyOf temps)).2 := by
  intro last
  have hlen : last.length = min temps.length historySize := by
    rw [List.length_drop]
    omega
  have hentries : (historyOf temps).toList =
      List.replicate (historySize - last.length) noTemp ++ last := by
    rw [historyOf_toList, hlen]
    congr 2
    omega
  have hvalues : temperatures (historyOf temps).toList = temperatures last := by
    have hempty : temperatures (List.replicate (historySize - last.length) noTemp) = [] := by
      rw [temperatures, List.filter_replicate, if_neg (by simp [same_noTemp_iff])]
    rw [hentries, temperatures, List.filter_append, ← temperatures, hempty]
    rfl
  have hnumbers : ∀ t ∈ (historyOf temps).toList, ¬ t.IsNaN := by
    intro t ht
    rw [hentries] at ht
    rcases List.mem_append.mp ht with ht | ht
    · rw [List.eq_of_mem_replicate ht]
      decide +kernel
    · exact hnan t (List.mem_of_mem_drop ht)
  exact ⟨hlen, hentries, hvalues ▸ findInHistory_extremes _ hnumbers⟩

/-- Two frosty readings with a missing one between them. -/
theorem history_extremes_frost :
    Extremes (temperatures [.ofInt _ (-3), noTemp, .ofInt _ (-7)])
      (findInHistory (historyOf [.ofInt _ (-3), noTemp, .ofInt _ (-7)])).1
      (findInHistory (historyOf [.ofInt _ (-3), noTemp, .ofInt _ (-7)])).2 := by
  have hnan : ∀ t ∈ [.ofInt _ (-3), noTemp, .ofInt _ (-7)], ¬ t.IsNaN := by decide +kernel
  exact (history_extremes _ hnan).2.2

end EspNowGateway.Display
