import GoBindings.Proofs.Defaults
import GoBindings.Proofs.Evaluation
import GoBindings.Proofs.MapKeys

set_option autoImplicit false

/-! # What a constructor sends

The function `getConstructorParams` returns a map with everything that the caller gives. What the
caller leaves out is there if the schema says what to fill in: a reference to the object from which
the new one is made, the default of a primitive type, or the default of an enumeration.

The default of an enumeration is written as a conversion, so the enumeration has to be named where
the receiver and the parameters of the function are in scope. -/

namespace GoBindings

open Go (Expr Stmt)

/-- The default as a value of Go. -/
def Default.value : Default → Go.Value
  | .text s => .text s
  | .int n => .int n
  | .float x => .float x
  | .boolean b => .bool b

namespace Binding

theorem value?_literalOf (d : Default) : (literalOf d).value? = some d.value := by
  cases d <;> rfl

/-! ## Types as they are written -/

/-- The type expression that a type is written with. -/
def Resolved.written : Resolved → TypeExpr
  | primitive p => .primitive p
  | enum name | value name | remote name => .named name
  | collection item => .collection item.written
  | optional inner => .optional inner.written

theorem Denotes.eq_written {r : Registry} {e : TypeExpr} {t : Resolved} (h : Denotes r e t) :
    e = t.written := by
  induction h with
  | primitive p => rfl
  | named hname =>
    unfold Resolved.ofEntry
    split <;> rfl
  | collection _ ih => rw [Resolved.written, ← ih]
  | optional _ ih => rw [Resolved.written, ← ih]

theorem Denotes.required_eq {r : Registry} {e : TypeExpr} {t required : Resolved}
    (h : Denotes r e t) (ht : t.required = required) : e.required = required.written :=
  ht ▸ h.required.eq_written

/-! ## One parameter -/

/-- The default of the parameter is a text that is converted to an enumeration. -/
def Converts (r : Registry) (p : Schema.Property) (name s : String) : Prop :=
  ∃ e t, Interface.Denoted p e ∧ Denotes r e t ∧ t.required = .enum name ∧
    p.defaultValue = some (.text s)

/-- What is filled in for a parameter, as it is written and as the value that it has. -/
inductive Fills (r : Registry) (rt : Go.Runtime) (maker : Go.Value) (p : Schema.Property) :
    Expr → Go.Value → Prop
  | reference {e : TypeExpr} {t : Resolved} {className : String} (he : Interface.Denoted p e)
      (ht : Denotes r e t) (hrequired : t.required = .remote className) :
      Fills r rt maker p (textForm (.ident "from")) (.text (rt.textOf maker))
  | literal {e : TypeExpr} {t : Resolved} {primitive : Primitive} {d : Default}
      (he : Interface.Denoted p e) (ht : Denotes r e t)
      (hrequired : t.required = .primitive primitive)
      (hd : Default.Settled primitive p.defaultValue d) :
      Fills r rt maker p (.literal (literalOf d)) d.value
  | conversion {name s : String} (h : Converts r p name s) :
      Fills r rt maker p (.call (.ident name) [.string s]) (.text s)

theorem eval_conversion (rt : Go.Runtime) (vars : Go.Scope) (name s : String) :
    (Expr.call (.ident name) [.string s]).eval rt vars
      = if Go.isFree vars name then some (.text s) else none := by
  have hstring : (Expr.string s).eval rt vars = some (.text s) := by
    rw [Expr.string, Expr.eval, Go.Literal.value?]
  exact Expr.eval_convert_text hstring name

theorem Fills.eval {r : Registry} {rt : Go.Runtime} {maker : Go.Value} {p : Schema.Property}
    {x : Expr} {v : Go.Value} (h : Fills r rt maker p x v) {vars : Go.Scope}
    (hmaker : Go.lookupName vars "from" = some maker) (hfmt : Go.isFree vars "fmt" = true)
    (hnames : ∀ name s, Converts r p name s → Go.isFree vars name = true) :
    x.eval rt vars = some v := by
  cases h with
  | reference he ht hrequired =>
    have hident : (Expr.ident "from").eval rt vars = some maker := hmaker
    exact Expr.eval_sprintf hident hfmt
  | literal he ht hrequired hd => rw [Expr.eval, value?_literalOf]
  | @conversion name s hconverts => rw [eval_conversion, if_pos (hnames name s hconverts)]

/-- The seed is what the class keeps of the parameter. -/
def Seed.IsFor (r : Registry) (s : Seed) (p : Schema.Property) : Prop :=
  s.wireName = p.name ∧ ∀ rt maker x, s.value? = some x ↔ ∃ v, Fills r rt maker p x v

theorem Seed.isFor_of_ofField {registry : Registry} {path : Path} {place : Place} {owner : String}
    {p : Schema.Property} {f : Interface.Field} {s : Seed}
    (hf : (Interface.Field.ofProperty path place p).result = .ok f)
    (hs : Seed.ofField registry owner f = .ok s) : s.IsFor registry p := by
  obtain ⟨hname, he⟩ := Interface.Field.name_type_of_ofProperty hf
  have hdefault := Interface.Field.default_of_ofProperty hf
  obtain ⟨hwire, hkept, ht⟩ := Seed.parts_of_ofField hs
  refine ⟨hwire.trans hname, fun rt maker x => ?_⟩
  rw [hdefault] at hkept
  unfold Seed.value?
  constructor
  · intro hx
    split at hx
    · next hrequired =>
      cases hx
      exact ⟨_, .reference he ht hrequired⟩
    · next hrequired hd =>
      cases hx
      have hsettled := (Default.settle_eq_some_iff_settled (ht.required_eq hrequired)).1
        (hkept.symm.trans hd)
      exact ⟨_, .literal he ht hrequired hsettled⟩
    · next hrequired hd =>
      cases hx
      obtain ⟨s, hgiven, ⟨⟩⟩ := (Default.settle_eq_some_iff_text (ht.required_eq hrequired)).1
        (hkept.symm.trans hd)
      exact ⟨_, .conversion ⟨_, _, he, ht, hrequired, hgiven⟩⟩
    · cases hx
  · rintro ⟨v, hfills⟩
    cases hfills with
    | reference he' ht' hrequired =>
      obtain rfl := he.unique he'
      rw [ht.unique ht', hrequired]
    | literal he' ht' hrequired hd =>
      obtain rfl := he.unique he'
      have hsettle :=
        (Default.settle_eq_some_iff_settled (ht'.required_eq hrequired)).2 hd
      rw [ht.unique ht', hrequired, hkept, hsettle]
    | conversion hconverts =>
      obtain ⟨e', t', he', ht', hrequired, hgiven⟩ := hconverts
      obtain rfl := he.unique he'
      have hsettle := (Default.settle_eq_some_iff_text (ht'.required_eq hrequired)).2
        ⟨_, hgiven, rfl⟩
      rw [ht.unique ht', hrequired, hkept, hsettle]

/-! ## The whole map -/

section

variable {r : Registry} {rt : Go.Runtime} {vars : Go.Scope} {maker : Go.Value}
  {params : List Schema.Property} {seeds : List Seed}

/-- The map that is written out has an entry for every parameter that is filled in. -/
theorem exists_evalEntries (rt : Go.Runtime)
    (h : List.Forall₂ (fun p s => Seed.IsFor r s p) params seeds)
    (hmaker : Go.lookupName vars "from" = some maker) (hfmt : Go.isFree vars "fmt" = true)
    (hnames : ∀ p ∈ params, ∀ name s, Converts r p name s → Go.isFree vars name = true) :
    ∃ filled, Expr.evalEntries rt vars (seeds.filterMap Seed.entry?) = some filled ∧
      (filled.map Prod.fst).Sublist (params.map Schema.Property.name) ∧
      ∀ key v, (key, v) ∈ filled ↔
        ∃ p ∈ params, p.name = key ∧ ∃ x, Fills r rt maker p x v := by
  induction h with
  | nil => exact ⟨[], rfl, .slnil, by simp⟩
  | @cons p s params seeds hps _ ih =>
    obtain ⟨hname, hvalue⟩ := hps
    obtain ⟨hhere, hrest⟩ := List.forall_mem_cons.1 hnames
    obtain ⟨filled, heval, hkeys, hfilled⟩ := ih hrest
    cases hs : s.value? with
    | none =>
      have hnone : s.entry? = none := by rw [Seed.entry?, hs, Option.map_none]
      have hempty : ∀ x v, ¬Fills r rt maker p x v := by
        intro x v hx
        rw [(hvalue rt maker x).2 ⟨v, hx⟩] at hs
        cases hs
      refine ⟨filled, by rw [List.filterMap_cons_none hnone, heval], hkeys.cons _, ?_⟩
      intro key v
      simp [hfilled, hempty]
    | some x =>
      have hsome : s.entry? = some (.string p.name, x) := by
        rw [Seed.entry?, hs, Option.map_some, hname]
      obtain ⟨v, hx⟩ := (hvalue rt maker x).1 hs
      -- the seed gives one expression, and that has one value
      have hunique : ∀ x' w, Fills r rt maker p x' w ↔ x' = x ∧ w = v := by
        intro x' w
        constructor
        · intro hx'
          obtain rfl := Option.some.inj (hs.symm.trans ((hvalue rt maker x').2 ⟨w, hx'⟩))
          exact ⟨rfl, Option.some.inj
            ((hx'.eval hmaker hfmt hhere).symm.trans (hx.eval hmaker hfmt hhere))⟩
        · rintro ⟨rfl, rfl⟩
          exact hx
      refine ⟨(p.name, v) :: filled, ?_, hkeys.cons_cons _, ?_⟩
      · rw [List.filterMap_cons_some hsome, Expr.evalEntries, hx.eval hmaker hfmt hhere, heval,
          Expr.string, Expr.eval, Go.Literal.value?]
      · intro key w
        simp [hfilled, hunique, eq_comm]

/-- A conversion to an enumeration that cannot be named leaves the whole map without a value. -/
theorem evalEntries_eq_none {p : Schema.Property} {name s : String} (rt : Go.Runtime)
    (h : List.Forall₂ (fun p s => Seed.IsFor r s p) params seeds) (hp : p ∈ params)
    (hconverts : Converts r p name s) (hfree : Go.isFree vars name = false) :
    Expr.evalEntries rt vars (seeds.filterMap Seed.entry?) = none := by
  obtain ⟨seed, hseed, -, hvalue⟩ := Outcome.exists_of_mem_left h hp
  have hx : seed.value? = some (.call (.ident name) [.string s]) :=
    (hvalue rt (.interface none) _).2 ⟨_, .conversion hconverts⟩
  have hentry : (.string seed.wireName, .call (.ident name) [.string s])
      ∈ seeds.filterMap Seed.entry? :=
    List.mem_filterMap.2 ⟨seed, hseed, by rw [Seed.entry?, hx, Option.map_some]⟩
  refine Expr.evalEntries_eq_none hentry ?_
  rw [eval_conversion, hfree]
  rfl

/-- The loop copies the options of the caller. -/
theorem execAll_copyOptions {options : Option (List (String × Go.Value))}
    {filled : List (String × Go.Value)} {go : Go.Scope → Go.Behavior} {rest : List Stmt}
    (hoptions : Go.lookupName vars "options" = some (.map options)) :
    Stmt.execAll rt (("ret", .map (some filled)) :: vars) go
        (.forRange "key" "value" (.ident "options")
          [.assign (.index (.ident "ret") (.ident "key")) (.ident "value")] :: rest)
      = Stmt.execAll rt (("ret", .map (some (Go.setEntries filled (options.getD [])))) :: vars) go
          rest := by
  -- one pass of the body sets one entry of the map, and leaves the other variables alone
  refine Stmt.execAll_forRange (fun entries => ("ret", .map (some entries)) :: vars)
    (fun entries e => Go.setEntry entries e.1 e.2) ?_ ?_
  · rw [Expr.eval, Go.lookupName_cons_of_ne (by decide), hoptions]
  · intro entries e next
    simp [Stmt.execAll, Stmt.exec, Expr.eval, Go.lookupName, List.lookup_cons, Go.Scope.set,
      Go.Scope.leave]

/-- The body returns the options of the caller, put over the map that is written out. -/
theorem run_constructorBody {options : Option (List (String × Go.Value))}
    {filled : List (String × Go.Value)}
    (hoptions : Go.lookupName vars "options" = some (.map options))
    (hpayload : Go.Ty.payload.isFree vars = true)
    (hfilled : Expr.evalEntries rt vars (seeds.filterMap Seed.entry?) = some filled) :
    Go.run rt vars (constructorBody seeds)
      = .returns [.map (if seeds.isEmpty then options
          else some (Go.setEntries filled (options.getD [])))] := by
  unfold constructorBody Go.run
  split
  · exact Stmt.execAll_return (by simp only [Expr.evalAll, Expr.eval, hoptions])
  · rw [Stmt.execAll_define rfl (Expr.eval_mapOf hpayload hfilled), execAll_copyOptions hoptions]
    exact Stmt.execAll_return (by simp [Expr.evalAll, Expr.eval, Go.lookupName])

theorem run_constructorBody_eq_stuck
    (hfilled : Expr.evalEntries rt vars (seeds.filterMap Seed.entry?) = none) :
    Go.run rt vars (constructorBody seeds) = .stuck := by
  unfold constructorBody
  split
  · next hempty =>
    rw [List.isEmpty_iff.1 hempty] at hfilled
    cases hfilled
  · refine Stmt.execAll_define_stuck rfl ?_
    rw [Expr.eval, hfilled, Option.map_none, ite_self]

end

/-- **What a constructor sends.** For every object from which the new one is made and all options,
    the map that is returned has the options of the caller and, under every other key, what is
    filled in for the parameter of that name. This holds exactly if no enumeration to which a
    default is converted is called like the receiver or a parameter of the function, or `_`;
    otherwise the body has no meaning. What is filled in is written out in the body, and for a
    parameter of a primitive type it is always a literal of its kind. The options come in any order,
    with every key once. -/
theorem constructor_returns_options_over_defaults {registry : Registry} {path : Path}
    {owner : String} {params : List Schema.Property} {fields : List Interface.Field}
    {seeds : List Seed} (code : CodeSettings) (rt : Go.Runtime) (receiver maker : Go.Value)
    (options : Option (List (String × Go.Value)))
    (hfields : (params.mapM fun p =>
      Interface.Field.ofProperty path (.constructorParameter owner p.name) p).result = .ok fields)
    (hseeds : fields.mapM (Seed.ofField registry owner) = .ok seeds)
    (hnames : (params.map Schema.Property.name).Nodup)
    (hoptions : ((options.getD []).map Prod.fst).Nodup) :
    ((∃ returned,
      Go.run rt [("elem", receiver), ("from", maker), ("options", .map options)]
          (constructorFunc code owner seeds).body = .returns [.map returned] ∧
        ∀ key v, (returned.getD []).lookup key = some v ↔
          (options.getD []).lookup key = some v ∨
            (options.getD []).lookup key = none ∧
              ∃ p ∈ params, p.name = key ∧ ∃ x, Fills registry rt maker p x v) ↔
      ∀ p ∈ params, ∀ name s, Converts registry p name s →
        name ∉ ["_", "elem", "from", "options"]) ∧
    (∀ p ∈ params, ∀ name s, Converts registry p name s →
      name ∈ ["_", "elem", "from", "options"] →
        Go.run rt [("elem", receiver), ("from", maker), ("options", .map options)]
          (constructorFunc code owner seeds).body = .stuck) ∧
    (∀ p ∈ params, ∀ x v, Fills registry rt maker p x v →
      ∃ entries ∈ (constructorFunc code owner seeds).body.flatMap Stmt.maps,
        (.string p.name, x) ∈ entries) ∧
    ∀ p ∈ params, ∀ e t primitive, Interface.Denoted p e → Denotes registry e t →
      t.required = .primitive primitive →
        ∃ d, Default.OfKind primitive d ∧
          Fills registry rt maker p (.literal (literalOf d)) d.value := by
  have hfor : List.Forall₂ (fun p s => Seed.IsFor registry s p) params seeds :=
    (Outcome.forall₂_trans (Logged.result_mapM_eq_ok_iff.1 hfields)
      (Outcome.mapM_eq_ok_iff.1 hseeds)).imp fun _ _ ⟨_, hf, hs⟩ => Seed.isFor_of_ofField hf hs
  have hfree : ∀ name, Go.isFree [("elem", receiver), ("from", maker), ("options", .map options)]
      name = true ↔ name ∉ ["_", "elem", "from", "options"] := by
    intro name
    rw [Go.isFree_eq_true_iff, List.mem_cons, not_or]
    rfl
  have hstuck : ∀ p ∈ params, ∀ name s, Converts registry p name s →
      name ∈ ["_", "elem", "from", "options"] →
        Go.run rt [("elem", receiver), ("from", maker), ("options", .map options)]
          (constructorFunc code owner seeds).body = .stuck := by
    intro p hp name s hconverts hname
    refine run_constructorBody_eq_stuck (evalEntries_eq_none rt hfor hp hconverts ?_)
    exact Bool.eq_false_iff.2 fun hname' => (hfree name).1 hname' hname
  refine ⟨⟨?_, ?_⟩, hstuck, ?_, ?_⟩
  · rintro ⟨returned, hrun, -⟩ p hp name s hconverts hname
    cases hrun.symm.trans (hstuck p hp name s hconverts hname)
  · intro hnamed
    have hmaker : Go.lookupName [("elem", receiver), ("from", maker), ("options", .map options)]
        "from" = some maker := rfl
    obtain ⟨filled, hfilled, hkeys, hmem⟩ := exists_evalEntries rt hfor hmaker rfl
      fun p hp name s hconverts => (hfree name).2 (hnamed p hp name s hconverts)
    refine ⟨_, run_constructorBody rfl rfl hfilled, fun key v => ?_⟩
    have hlookup : filled.lookup key = some v ↔
        ∃ p ∈ params, p.name = key ∧ ∃ x, Fills registry rt maker p x v :=
      (lookup_eq_some_iff_mem (hkeys.nodup hnames)).trans (hmem key v)
    rw [← hlookup]
    -- without parameters the options are returned as they are, even if they are nil
    cases hseed : seeds with
    | nil =>
      subst hseed
      cases hfilled
      simp
    | cons s seeds =>
      simp [Go.lookup_setEntries hoptions, Option.or_eq_some_iff]
  · intro p hp x v hx
    obtain ⟨s, hs, hname, hvalue⟩ := Outcome.exists_of_mem_left hfor hp
    refine ⟨seeds.filterMap Seed.entry?, ?_, List.mem_filterMap.2 ⟨s, hs, ?_⟩⟩
    · rw [constructorFunc, maps_constructorBody, if_neg (by simpa using List.ne_nil_of_mem hs)]
      exact List.mem_singleton_self _
    · rw [Seed.entry?, (hvalue rt maker x).2 ⟨v, hx⟩, Option.map_some, hname]
  · intro p hp e t primitive he ht hrequired
    obtain ⟨d, hd⟩ := Default.exists_settled primitive p.defaultValue
    exact ⟨d, hd.ofKind, .literal he ht hrequired hd⟩

/-- A pipeline and an enumeration of speeds. -/
def pipelineRegistry : Registry :=
  (Registry.empty.set "Pipeline" ⟨.remote, ⟨"core.kmd.json"⟩, 0, none⟩).set "Speed"
    ⟨.enum, ⟨"core.kmd.json"⟩, 0, none⟩

/-- The default of the volume is of another kind. -/
def playerParams : List Schema.Property :=
  [⟨"pipeline", "Pipeline", "", false, none⟩,
    ⟨"volume", "int", "", true, some (.text "loud")⟩,
    ⟨"speed", "Speed", "", false, some (.text "FAST")⟩]

def playerSeeds : List Seed :=
  [⟨"pipeline", .remote "Pipeline", none⟩,
    ⟨"volume", .optional (.primitive .int), some (.int 0)⟩,
    ⟨"speed", .enum "Speed", some (.text "FAST")⟩]

/-- The caller sets only the speed. -/
theorem player_returns_options_over_defaults :
    ∃ returned,
      Go.run ⟨fun _ => "id", fun _ => []⟩
          [("elem", .pointer none), ("from", .interface none),
            ("options", .map (some [("speed", .text "SLOW")]))]
          (constructorFunc .default "Player" playerSeeds).body = .returns [.map returned] ∧
        (returned.getD []).lookup "speed" = some (.text "SLOW") ∧
        (returned.getD []).lookup "pipeline" = some (.text "id") ∧
        (returned.getD []).lookup "volume" = some (.int 0) := by
  have hpipeline : TypeExpr.parse "Pipeline" = .ok (.named "Pipeline") := by decide +kernel
  have hvolume : TypeExpr.parse "int" = .ok (.primitive .int) := by decide +kernel
  have hspeed : TypeExpr.parse "Speed" = .ok (.named "Speed") := by decide +kernel
  have hfields : (playerParams.mapM fun p => Interface.Field.ofProperty ⟨"player.kmd.json"⟩
      (.constructorParameter "Player" p.name) p).result
      = .ok [⟨"pipeline", .named "Pipeline", none, DocText.lines ""⟩,
        ⟨"volume", .optional (.primitive .int), some (.int 0), DocText.lines ""⟩,
        ⟨"speed", .named "Speed", some (.text "FAST"), DocText.lines ""⟩] :=
    Logged.result_mapM_eq_ok_iff.2
      (.cons (Interface.Field.result_ofProperty _ _ (.named "Pipeline") hpipeline)
        (.cons (Interface.Field.result_ofProperty _ _ (.primitive .int) hvolume)
          (.cons (Interface.Field.result_ofProperty _ _ (.named "Speed") hspeed) .nil)))
  have hseeds : List.mapM (Seed.ofField pipelineRegistry "Player")
      [⟨"pipeline", .named "Pipeline", none, DocText.lines ""⟩,
        ⟨"volume", .optional (.primitive .int), some (.int 0), DocText.lines ""⟩,
        ⟨"speed", .named "Speed", some (.text "FAST"), DocText.lines ""⟩]
      = .ok playerSeeds := rfl
  obtain ⟨hreturns, -⟩ := constructor_returns_options_over_defaults .default
    ⟨fun _ => "id", fun _ => []⟩ (.pointer none) (.interface none)
    (some [("speed", .text "SLOW")]) hfields hseeds (by decide) (by decide)
  have hnamed : ∀ p ∈ playerParams, ∀ name s, Converts pipelineRegistry p name s →
      name ∉ ["_", "elem", "from", "options"] := by
    rintro p hp name s ⟨e, t, ⟨parsed, hparsed, rfl⟩, ht, hrequired, hdefault⟩
    have hname := ht.required_eq hrequired
    simp only [playerParams, List.mem_cons, List.not_mem_nil, or_false] at hp
    rcases hp with rfl | rfl | rfl
    · cases hdefault
    · cases hvolume.symm.trans hparsed
      cases hname
    · cases hspeed.symm.trans hparsed
      cases hname
      decide
  obtain ⟨returned, hrun, hlookup⟩ := hreturns.2 hnamed
  have hd : Default.Settled .int (some (.text "loud")) (.int 0) :=
    .zero (by rintro _ _ ⟨⟩ ⟨⟩) .int
  refine ⟨returned, hrun, (hlookup _ _).2 (Or.inl rfl), ?_, ?_⟩
  · exact (hlookup _ _).2 (Or.inr ⟨rfl, _, List.mem_cons_self, rfl, _,
      .reference ⟨_, hpipeline, rfl⟩ (.named rfl) rfl⟩)
  · exact (hlookup _ (Default.int 0).value).2 (Or.inr ⟨rfl, _,
      List.mem_cons_of_mem _ List.mem_cons_self, rfl, _,
      .literal ⟨_, hvolume, rfl⟩ (.optional (.primitive .int)) rfl hd⟩)

/-- An enumeration called like a parameter of the function. -/
def optionsRegistry : Registry :=
  Registry.empty.set "options" ⟨.enum, ⟨"core.kmd.json"⟩, 0, none⟩

def modeSeeds : List Seed := [⟨"mode", .enum "options", some (.text "FAST")⟩]

/-- The conversion is a call of the map that the caller gives. -/
theorem mode_calls_the_options :
    ((List.mapM (fun p => Interface.Field.ofProperty ⟨"player.kmd.json"⟩
        (.constructorParameter "Player" p.name) p)
        [(⟨"mode", "options", "", false, some (.text "FAST")⟩ : Schema.Property)]).result
      = .ok [⟨"mode", .named "options", some (.text "FAST"), DocText.lines ""⟩]) ∧
    List.mapM (Seed.ofField optionsRegistry "Player")
        [⟨"mode", .named "options", some (.text "FAST"), DocText.lines ""⟩] = .ok modeSeeds ∧
    ∀ code rt receiver maker options,
      Go.run rt [("elem", receiver), ("from", maker), ("options", .map options)]
        (constructorFunc code "Player" modeSeeds).body = .stuck := by
  have hmode : TypeExpr.parse "options" = .ok (.named "options") := by decide +kernel
  refine ⟨?_, rfl, fun code rt receiver maker options => ?_⟩
  · exact Logged.result_mapM_eq_ok_iff.2
      (.cons (Interface.Field.result_ofProperty _ _ (.named "options") hmode) .nil)
  · have hentries : Expr.evalEntries rt
        [("elem", receiver), ("from", maker), ("options", .map options)]
        (modeSeeds.filterMap Seed.entry?) = none := by
      refine Expr.evalEntries_eq_none List.mem_cons_self ?_
      rw [eval_conversion]
      rfl
    exact run_constructorBody_eq_stuck hentries

end Binding

end GoBindings
