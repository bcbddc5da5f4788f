import Mathlib.Analysis.SpecialFunctions.Exp
import ModelServer.Library.Softmax
import ModelServer.Shared.Errors

/-!
# The model

`ONNXModel.predict_batch`, over an ordered field in place of the floats and with
`exp` as a parameter.  The tokenizer and the ONNX session are parameters as well:
`Gives` is what is assumed of them, that the first output of the session has one
row of two logits for each text, in order.

The label goes by the probability of the second column, and so does the score,
whichever label it stands beside: `agrees_iff` says when the two agree.
-/

namespace ModelServer

open Softmax

/-- What the tokenizer gives for one text. -/
structure Encoding where
  ids : List ℤ
  attentionMask : List ℤ
  typeIds : List ℤ

/-- What `ONNXModel.__init__` loads. -/
structure ONNXModel (K : Type) where
  /-- `self.tokenizer.encode_batch`. -/
  encodeBatch : List String → List Encoding
  inputNames : List String
  /-- `self.session.run`, with all outputs asked for. -/
  run : List (String × List (List ℤ)) → List (List (Fin 2 → K))

namespace ONNXModel

section

variable {K : Type} [Field K] [LinearOrder K]

/-- The inputs of the session that it has a name for. -/
def inputs (model : ONNXModel K) (texts : List String) : List (String × List (List ℤ)) :=
  let encodings := model.encodeBatch texts
  [("input_ids", encodings.map Encoding.ids),
    ("attention_mask", encodings.map Encoding.attentionMask),
    ("token_type_ids", encodings.map Encoding.typeIds)].filter fun input =>
      input.1 ∈ model.inputNames

/-- `np.max(logits, axis=-1)` of one row. -/
def maxLogit (row : Fin 2 → K) : K := Finset.univ.sup' Finset.univ_nonempty row

/-- The stable softmax of one row. -/
def probs (exp : K → K) (row : Fin 2 → K) (column : Fin 2) : K :=
  exp (row column - maxLogit row) / ∑ j, exp (row j - maxLogit row)

def toResult (prob : Fin 2 → K) : String × K :=
  let posScore := prob 1
  (if 1 / 2 ≤ posScore then "positive" else "negative", posScore)

/-- `predict_batch`, which reads the clock at `t0` to `t3`; `none` where `outputs[0]`
raises. -/
def predictBatch (exp : K → K) (model : ONNXModel K) (texts : List String)
    (t0 t1 t2 t3 : Time) : Option (List (String × K) × Time × Time × Time) :=
  if texts.isEmpty then some ([], 0, 0, 0)
  else
    match model.run (model.inputs texts) with
    | [] => none
    | logits :: _ =>
        some (logits.map fun row => toResult (probs exp row),
          (t1 - t0) * 1000, (t2 - t1) * 1000, (t3 - t2) * 1000)

theorem probs_eq_softmax {exp : K → K} (hexp : Exponential exp) (row : Fin 2 → K) :
    probs exp row = softmax exp row :=
  softmax_sub_const hexp row (maxLogit row)

end

/-! ## What is assumed of tokenizer and session -/

/-- The session gives row `i` of `logits` for text `i`. -/
structure Gives (model : ONNXModel ℝ) (texts : List String) (logits : List (Fin 2 → ℝ)) :
    Prop where
  outputs : texts ≠ [] → (model.run (model.inputs texts)).head? = some logits
  rows : logits.length = texts.length

theorem exponential_exp : Exponential Real.exp :=
  ⟨Real.exp_pos, Real.exp_add, Real.exp_strictMono⟩

/-- One result for each row, in order. -/
theorem predictBatch_of_gives {model : ONNXModel ℝ} {texts : List String}
    {logits : List (Fin 2 → ℝ)} (h : model.Gives texts logits) (t0 t1 t2 t3 : Time) :
    ∃ timings, predictBatch Real.exp model texts t0 t1 t2 t3 =
      some (logits.map fun row => toResult (softmax Real.exp row), timings) := by
  have hsoftmax : (fun row => toResult (probs Real.exp row)) =
      fun row => toResult (softmax Real.exp row) :=
    funext fun row => congrArg toResult (probs_eq_softmax exponential_exp row)
  unfold predictBatch
  cases texts with
  | nil =>
      have hnil : logits = [] := List.eq_nil_of_length_eq_zero h.rows
      exact ⟨_, by rw [hnil]; rfl⟩
  | cons text texts =>
      obtain ⟨others, hrun⟩ := List.head?_eq_some_iff.mp (h.outputs (List.cons_ne_nil _ _))
      rw [hrun, hsoftmax]
      exact ⟨_, rfl⟩

/-! ## Label and score -/

/-- The column a label stands for. -/
def column (label : String) : Fin 2 := if label = "positive" then 1 else 0

/-- The label goes by the logits, and the score is the probability of the label. -/
structure ResultAgrees (row : Fin 2 → ℝ) (result : String × ℝ) : Prop where
  positive : result.1 = "positive" ↔ row 0 ≤ row 1
  negative : result.1 = "negative" ↔ row 1 < row 0
  score : result.2 = softmax Real.exp row (column result.1)
  half : 1 / 2 ≤ result.2

theorem toResult_of_le {row : Fin 2 → ℝ} (h : row 0 ≤ row 1) :
    toResult (softmax Real.exp row) = ("positive", softmax Real.exp row 1) := by
  have hhalf := (half_le_softmax_iff exponential_exp row).mpr h
  simp only [toResult, if_pos hhalf]

theorem toResult_of_lt {row : Fin 2 → ℝ} (h : row 1 < row 0) :
    toResult (softmax Real.exp row) = ("negative", softmax Real.exp row 1) := by
  have hhalf : ¬ 1 / 2 ≤ softmax Real.exp row 1 := fun hhalf =>
    absurd ((half_le_softmax_iff exponential_exp row).mp hhalf) (not_le.mpr h)
  simp only [toResult, if_neg hhalf]

/-- The score is right where the label is `"positive"`, and only there. -/
theorem resultAgrees_iff (row : Fin 2 → ℝ) :
    ResultAgrees row (toResult (softmax Real.exp row)) ↔ row 0 ≤ row 1 := by
  constructor
  · intro h
    by_contra hless
    rw [not_le] at hless
    have hhalf := h.half
    rw [toResult_of_lt hless] at hhalf
    exact absurd ((half_le_softmax_iff exponential_exp row).mp hhalf) (not_le.mpr hless)
  · intro h
    rw [toResult_of_le h]
    exact ⟨iff_of_true rfl h, iff_of_false (by simp) (not_lt.mpr h), rfl,
      (half_le_softmax_iff exponential_exp row).mpr h⟩

/-- `constant i` is added to both logits of row `i`. -/
def shift (constant : ℕ → ℝ) (logits : List (Fin 2 → ℝ)) : List (Fin 2 → ℝ) :=
  logits.mapIdx fun i row column => row column + constant i

theorem results_shift (constant : ℕ → ℝ) (logits : List (Fin 2 → ℝ)) :
    (shift constant logits).map (fun row => toResult (softmax Real.exp row)) =
      logits.map fun row => toResult (softmax Real.exp row) := by
  apply List.ext_getElem
  · simp [shift]
  · intro i _ _
    simp only [shift, List.getElem_map, List.getElem_mapIdx]
    rw [softmax_add_const exponential_exp]

/-- `predict_batch` returns one result for each text, in order, which agrees with the
row of its text, and a shift of the rows changes none of them. -/
def Agrees (model : ONNXModel ℝ) (texts : List String) (logits : List (Fin 2 → ℝ)) : Prop :=
  ∀ t0 t1 t2 t3, ∃ results timings,
    predictBatch Real.exp model texts t0 t1 t2 t3 = some (results, timings) ∧
      results.length = texts.length ∧ List.Forall₂ ResultAgrees logits results ∧
      ∀ constant shifted, shifted.Gives texts (shift constant logits) →
        ∃ timings', predictBatch Real.exp shifted texts t0 t1 t2 t3 = some (results, timings')

theorem forall₂_resultAgrees_iff (logits : List (Fin 2 → ℝ)) :
    List.Forall₂ ResultAgrees logits
        (logits.map fun row => toResult (softmax Real.exp row)) ↔
      ∀ row ∈ logits, row 0 ≤ row 1 := by
  simp only [List.forall₂_map_right_iff, List.forall₂_same, resultAgrees_iff]

theorem rows_of_agrees {model : ONNXModel ℝ} {texts : List String} {logits : List (Fin 2 → ℝ)}
    (h : model.Gives texts logits) (hagrees : Agrees model texts logits) :
    ∀ row ∈ logits, row 0 ≤ row 1 := by
  obtain ⟨results, timings, hresults, _, hrows, _⟩ := hagrees 0 0 0 0
  obtain ⟨timings', hpredict⟩ := predictBatch_of_gives h 0 0 0 0
  rw [hpredict] at hresults
  cases hresults
  exact (forall₂_resultAgrees_iff logits).mp hrows

/-- **Label and score agree unless a label is negative.**  The results agree with the
logits exactly if in no row the first logit is the larger one: the score is always the
probability of `"positive"`. -/
theorem agrees_iff {model : ONNXModel ℝ} {texts : List String} {logits : List (Fin 2 → ℝ)}
    (h : model.Gives texts logits) :
    Agrees model texts logits ↔ ∀ row ∈ logits, row 0 ≤ row 1 := by
  refine ⟨rows_of_agrees h, fun hpositive t0 t1 t2 t3 => ?_⟩
  obtain ⟨timings, hpredict⟩ := predictBatch_of_gives h t0 t1 t2 t3
  refine ⟨_, timings, hpredict, ?_, (forall₂_resultAgrees_iff logits).mpr hpositive, ?_⟩
  · rw [List.length_map, h.rows]
  · intro constant shifted hshifted
    rw [← results_shift constant logits]
    exact predictBatch_of_gives hshifted t0 t1 t2 t3

/-- A model with the same logits for every text. -/
noncomputable def constantModel (row : Fin 2 → ℝ) : ONNXModel ℝ where
  encodeBatch texts := texts.map fun _ => ⟨[101, 102], [1, 1], [0, 0]⟩
  inputNames := ["input_ids", "attention_mask", "token_type_ids"]
  run inputs := [((inputs.lookup "input_ids").getD []).map fun _ => row]

theorem gives_constantModel (row : Fin 2 → ℝ) (text : String) :
    (constantModel row).Gives [text] [row] :=
  ⟨fun _ => by simp [constantModel, inputs], rfl⟩

theorem agrees_love : Agrees (constantModel ![0, 1]) ["I love this movie."] [![0, 1]] := by
  refine (agrees_iff (gives_constantModel _ _)).mpr fun row hrow => ?_
  rw [List.mem_singleton.mp hrow]
  norm_num

/-- A negative text gets the probability of `"positive"` as its score. -/
theorem not_agrees_hate :
    (constantModel ![1, 0]).Gives ["I hate this movie."] [![1, 0]] ∧
      ¬ Agrees (constantModel ![1, 0]) ["I hate this movie."] [![1, 0]] := by
  refine ⟨gives_constantModel _ _, fun hagrees => ?_⟩
  have hrow := rows_of_agrees (gives_constantModel _ _) hagrees ![1, 0] (List.mem_singleton_self _)
  norm_num at hrow

end ONNXModel
end ModelServer
