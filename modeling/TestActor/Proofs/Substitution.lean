import TestActor.Forwarder

/-!
# Filling in templates

When every placeholder has a value, filling in cannot fail, and the text that it gives is the
template with the values in the places of the placeholders. The two templates are only filled in
with a value for each of their placeholders.

## Main definitions

* `Forwarder.wording`: a forwarding method, word by word.
* `Forwarder.Declares`: a text declares a step of a described method.

## Main statements

* `Template.render_eq_ok`: the text of a template whose placeholders have values.
* `Forwarder.render_eq_ok`: the text of a forwarding method.
* `Forwarder.render_eq_ok_iff`: the name that it declares, the step that it runs and the method that
  it calls, as they stand in this text.
* `Forwarder.docText_infix_text`: the documentation stands in the text of a forwarding method.
-/

namespace TestActor

namespace Template

variable {values : Values}

/-- The text of pieces with the values in the places of the placeholders. -/
def substituted (values : Values) : List Piece → String
  | [] => ""
  | .text fixed :: rest => fixed ++ substituted values rest
  | .slot key :: rest => (values.lookup key).getD "" ++ substituted values rest

theorem fill_eq_ok {pieces : List Piece}
    (h : ∀ key, .slot key ∈ pieces → (values.lookup key).isSome) (line : Nat) :
    fill values line pieces = .ok (substituted values pieces) := by
  induction pieces generalizing line with
  | nil => rfl
  | cons piece rest ih =>
    have hrest : ∀ key, .slot key ∈ rest → (values.lookup key).isSome :=
      fun key hk => h key (List.mem_cons_of_mem _ hk)
    cases piece with
    | text fixed =>
      rw [fill, ih hrest]
      rfl
    | slot key =>
      obtain ⟨value, hvalue⟩ := Option.isSome_iff_exists.mp (h key List.mem_cons_self)
      rw [fill, substituted, hvalue]
      show (fill values line rest).map (value ++ ·) = _
      rw [ih hrest]
      rfl

theorem substituted_append (first second : List Piece) :
    substituted values (first ++ second)
      = substituted values first ++ substituted values second := by
  induction first with
  | nil => rw [List.nil_append, substituted, String.empty_append]
  | cons piece rest ih =>
    cases piece <;> rw [List.cons_append, substituted, substituted, ih, String.append_assoc]

/-- Only the values of the placeholders that occur count. -/
theorem substituted_congr {values others : Values} {pieces : List Piece}
    (h : ∀ key, .slot key ∈ pieces → values.lookup key = others.lookup key) :
    substituted values pieces = substituted others pieces := by
  induction pieces with
  | nil => rfl
  | cons piece rest ih =>
    have hrest := ih fun key hkey => h key (List.mem_cons_of_mem _ hkey)
    cases piece with
    | text fixed => rw [substituted, substituted, hrest]
    | slot key => rw [substituted, substituted, hrest, h key List.mem_cons_self]

/-- The text of some pieces of a template stands in the text of the template. -/
theorem substituted_infix {part pieces : List Piece} (h : part <:+: pieces) :
    (substituted values part).toList <:+: (substituted values pieces).toList := by
  obtain ⟨before, after, rfl⟩ := h
  refine ⟨(substituted values before).toList, (substituted values after).toList, ?_⟩
  rw [substituted_append, substituted_append, String.toList_append, String.toList_append]

/-- **A template whose placeholders have values is filled in.** -/
theorem render_eq_ok {template : Template}
    (h : ∀ key, .slot key ∈ template.pieces → (values.lookup key).isSome) :
    template.render values = .ok (substituted values template.pieces) := by
  rw [render, fill_eq_ok h 1]
  rfl

end Template

/-- The forwarding method for a step of the described method, as a text. -/
def Forwarder.text (d : Descriptor) (step : Step) : String :=
  Template.substituted (values d step) Template.method.pieces

/-- **A forwarding method can always be written.** -/
theorem Forwarder.render_eq_ok (d : Descriptor) (step : Step) :
    render d step = .ok (text d step) := by
  refine Template.render_eq_ok fun key hkey => ?_
  simp only [Template.method, List.mem_cons, List.not_mem_nil, reduceCtorEq, or_false, false_or,
    Piece.slot.injEq] at hkey
  rcases hkey with rfl | rfl | rfl | rfl | rfl | rfl | rfl <;> rfl

/-- The wording of a forwarding method: the documentation that it shows, the method that this was
taken from, the public name with the parameters, and the kind of step that it runs. The method's
name stands in two places, below the documentation and in the step. -/
def Forwarder.wording (shown owner method name params kind : String) : String :=
  "\n    /**\n     * [!] Method is generated. Documentation taken from corresponding module.\n" ++
  "     *\n     " ++ shown ++
  "\n     * @see \\" ++ owner ++ "::" ++ method ++
  "()\n     */\n    public function " ++ name ++ "(" ++ params ++
  ") \x7b\n        return $this->getScenario()->runStep(new \\Codeception\\Step\\" ++ kind ++
  "('" ++ method ++ "', func_get_args()));\n    \x7d"

/-- The text declares a step of the described method: it has the name of the step as its public
name, runs a step of that kind, and calls the method. -/
def Forwarder.Declares (d : Descriptor) (step : Step) (text : String) : Prop :=
  text = wording (docText d.doc step.kind) d.owner d.method step.name (Parameter.listText d.params)
    step.kind.name

theorem Forwarder.declares_text (d : Descriptor) (step : Step) : Declares d step (text d step) := by
  unfold Declares wording text Template.method
  -- the fixed texts stay in the pieces that the template has
  simp [-String.reduceAppend, Template.substituted, values, List.lookup_cons, String.append_assoc]

/-- **What a forwarding method says**: the template filled in for a step declares this step. -/
theorem Forwarder.render_eq_ok_iff {d : Descriptor} {step : Step} {written : String} :
    render d step = .ok written ↔ Declares d step written := by
  rw [render_eq_ok, Except.ok.injEq, declares_text d step, eq_comm]
  rfl

/-- The text that a forwarding method shows for its documentation, and the line behind it. -/
theorem Forwarder.docText_infix_text (d : Descriptor) (step : Step) :
    (docText d.doc step.kind ++ "\n     * @see \\").toList <:+: (text d step).toList := by
  have hshown : Template.substituted (values d step) [.slot "doc", .text "\n     * @see \\"]
      = docText d.doc step.kind ++ "\n     * @see \\" := by
    rw [Template.substituted, Template.substituted, Template.substituted, String.append_empty]
    rfl
  rw [← hshown]
  exact Template.substituted_infix
    ⟨Template.method.pieces.take 2, Template.method.pieces.drop 4, rfl⟩

end TestActor
