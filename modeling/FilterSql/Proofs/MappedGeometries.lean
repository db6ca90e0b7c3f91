import FilterSql.Geodesy.Reprojection
import FilterSql.Proofs.FirstErrors

/-!
# Geometries mapped position by position

Mapping a geometry keeps its structure: the same shape, with as many polygons, rings and positions in
the same order. A polygon is made again from its mapped rings, which closes those whose ends differ;
the ends of a closed ring are mapped to the same position, so nothing is appended to it, unless that
position holds a double that is not a number and so differs from itself.

## Main definitions

* `Geometry.positions`: the positions of a geometry in the order in which they are mapped.
* `Geometry.Maps`: the relation of geometries of one structure.

## Main statements

* `Geometry.mapM_yields`: what mapping a geometry gives, and its first error.
* `Geodesy.reproject_positionwise`: so a geometry is reprojected position by position.
-/

namespace FilterSql

variable {P Q ε : Type}

namespace Geometry

/-! ## The structure of a geometry -/

/-- The rings of a polygon, the outer one first. -/
def Polygon.rings (p : Polygon P) : List (List P) := p.exterior :: p.interiors

/-- The rings of all polygons of a geometry that can be mapped. -/
def rings : Geometry P → List (List P)
  | .polygon p => p.rings
  | .multiPolygon ps => ps.flatMap (·.rings)
  | _ => []

/-- The shapes that can be mapped. -/
def isMappable : Geometry P → Bool
  | .point _ | .lineString _ | .polygon _ | .multiPolygon _ => true
  | _ => false

/-- The positions of a geometry that can be mapped: polygon by polygon, the outer ring of each before
its holes. -/
def positions : Geometry P → List P
  | .point c => [c]
  | .lineString cs => cs
  | .polygon p => p.rings.flatten
  | .multiPolygon ps => ps.flatMap (·.rings.flatten)
  | _ => []

/-- A ring is empty or ends where it starts. -/
def ClosedRing (ring : List P) : Prop := ring.head? = ring.getLast?

/-- The polygons have as many rings, with as many positions, that are related one by one. -/
structure Polygon.Maps (R : P → Q → Prop) (p : Polygon P) (q : Polygon Q) : Prop where
  exterior : List.Forall₂ R p.exterior q.exterior
  interiors : List.Forall₂ (List.Forall₂ R) p.interiors q.interiors

/-- The geometries are of the same shape, which can be mapped, and their positions are related one by
one. -/
inductive Maps (R : P → Q → Prop) : Geometry P → Geometry Q → Prop
  | point {c : P} {d : Q} : R c d → Maps R (.point c) (.point d)
  | lineString {cs : List P} {ds : List Q} : List.Forall₂ R cs ds →
    Maps R (.lineString cs) (.lineString ds)
  | polygon {p : Polygon P} {q : Polygon Q} : p.Maps R q → Maps R (.polygon p) (.polygon q)
  | multiPolygon {ps : List (Polygon P)} {qs : List (Polygon Q)} :
    List.Forall₂ (Polygon.Maps R) ps qs → Maps R (.multiPolygon ps) (.multiPolygon qs)

theorem Polygon.Maps.refl {R : P → P → Prop} (reflexive : ∀ c, R c c) (p : Polygon P) : p.Maps R p :=
  ⟨List.forall₂_same.2 fun c _ => reflexive c,
    List.forall₂_same.2 fun _ _ => List.forall₂_same.2 fun c _ => reflexive c⟩

theorem Maps.refl {R : P → P → Prop} (reflexive : ∀ c, R c c) {g : Geometry P}
    (mappable : g.isMappable = true) : g.Maps R g := by
  cases g with
  | point c => exact .point (reflexive c)
  | lineString cs => exact .lineString (List.forall₂_same.2 fun c _ => reflexive c)
  | polygon p => exact .polygon (.refl reflexive p)
  | multiPolygon ps => exact .multiPolygon (List.forall₂_same.2 fun p _ => .refl reflexive p)
  | _ => cases mappable

/-! ## Closed rings -/

theorem closeRing_of_closedRing [BEq Q] {ring : List Q} (closed : ClosedRing ring)
    (same : ∀ d ∈ ring, (d == d) = true) : closeRing ring = ring := by
  cases ring with
  | nil => rfl
  | cons d ds =>
    have here : (some d == some d) = true := same d (by simp)
    rw [closeRing, ← closed, List.head?_cons, if_pos here]

section Mapped

variable {f : P → Except ε Q}

theorem forall₂_ok_iff {cs : List P} {ds : List Q} :
    List.Forall₂ (f · = .ok ·) cs ds ↔ cs.map f = ds.map .ok := by
  rw [← List.forall₂_eq_eq_eq, List.forall₂_map_left_iff, List.forall₂_map_right_iff]

/-- The ends of a closed ring are mapped to the same position. -/
theorem ClosedRing.of_map {ring : List P} {mapped : List Q} (closed : ClosedRing ring)
    (h : ring.map f = mapped.map .ok) : ClosedRing mapped := by
  have ends : mapped.head?.map (Except.ok : Q → Except ε Q) = mapped.getLast?.map .ok := by
    rw [← List.head?_map, ← List.getLast?_map, ← h, List.head?_map, List.getLast?_map, closed]
  exact Option.map_injective (fun _ _ => Except.ok.inj) ends

/-- A ring that was closed needs no closing once it is mapped. -/
theorem closeRing_of_forall₂ [BEq Q] {ring : List P} {mapped : List Q} (closed : ClosedRing ring)
    (same : ∀ c ∈ ring, ∀ d, f c = .ok d → (d == d) = true)
    (h : List.Forall₂ (f · = .ok ·) ring mapped) : closeRing mapped = mapped := by
  rw [forall₂_ok_iff] at h
  refine closeRing_of_closedRing (closed.of_map h) fun d member => ?_
  obtain ⟨c, source, image⟩ : ∃ c ∈ ring, f c = .ok d := by
    rw [← List.mem_map, h]
    exact List.mem_map_of_mem member
  exact same c source d image

theorem map_closeRing_of_forall₂ [BEq Q] {rings : List (List P)} {mapped : List (List Q)}
    (closed : ∀ ring ∈ rings, ClosedRing ring)
    (same : ∀ ring ∈ rings, ∀ c ∈ ring, ∀ d, f c = .ok d → (d == d) = true)
    (h : List.Forall₂ (List.Forall₂ (f · = .ok ·)) rings mapped) :
    mapped.map closeRing = mapped := by
  induction h with
  | nil => rfl
  | cons first _ ih =>
    rw [List.forall_mem_cons] at closed same
    rw [List.map_cons, closeRing_of_forall₂ closed.1 same.1 first, ih closed.2 same.2]

/-! ## Mapping -/

theorem positions_yield (cs : List P) :
    Yields (cs.mapM f) (List.Forall₂ (f · = .ok ·) cs) (cs.flatMap fun c => failures (f c)) :=
  .mapM fun c _ => yields_self (f c)

/-- The errors of mapping a geometry: those of its positions, or that its shape cannot be mapped. -/
def errors (refuse : String → ε) (f : P → Except ε Q) (g : Geometry P) : List ε :=
  if g.isMappable then g.positions.flatMap fun c => failures (f c) else [refuse g.shapeName]

theorem errors_of_isMappable {g : Geometry P} (mappable : g.isMappable = true)
    (refuse : String → ε) :
    g.errors refuse f = g.positions.flatMap fun c => failures (f c) := if_pos mappable

theorem errors_eq_nil_iff {g : Geometry P} {refuse : String → ε} :
    g.errors refuse f = [] ↔ g.isMappable = true ∧ ∀ c ∈ g.positions, ∃ d, f c = .ok d := by
  cases mappable : g.isMappable with
  | true => simp [errors, mappable, failures_eq_nil_iff]
  | false => simp [errors, mappable]

/-- A polygon with closed rings is mapped ring by ring. -/
theorem Polygon.mapM_yields [BEq Q] {p : Polygon P}
    (closed : ∀ ring ∈ p.rings, ClosedRing ring)
    (same : ∀ ring ∈ p.rings, ∀ c ∈ ring, ∀ d, f c = .ok d → (d == d) = true) :
    Yields (p.mapM f) (p.Maps (f · = .ok ·)) (p.rings.flatten.flatMap fun c => failures (f c)) := by
  have steps := (positions_yield (f := f) p.exterior).bind fun exterior _ =>
    (Yields.mapM fun ring (_ : ring ∈ p.interiors) => positions_yield (f := f) ring).map
      (f := Polygon.close exterior)
  have errors : p.rings.flatten.flatMap (fun c => failures (f c)) =
      p.exterior.flatMap (fun c => failures (f c)) ++
        p.interiors.flatMap fun ring => ring.flatMap fun c => failures (f c) := by
    rw [rings, List.flatten_cons, List.flatMap_append, ← List.flatMap_id, List.flatMap_assoc]
    rfl
  rw [rings, List.forall_mem_cons] at closed same
  rw [errors]
  refine steps.congr fun q => ⟨?_, fun maps => ?_⟩
  · rintro ⟨exterior, outer, interiors, inner, rfl⟩
    rw [close, closeRing_of_forall₂ closed.1 same.1 outer,
      map_closeRing_of_forall₂ closed.2 same.2 inner]
    exact ⟨outer, inner⟩
  · refine ⟨q.exterior, maps.exterior, q.interiors, maps.interiors, ?_⟩
    rw [close, closeRing_of_forall₂ closed.1 same.1 maps.exterior,
      map_closeRing_of_forall₂ closed.2 same.2 maps.interiors]

/-- A geometry with closed rings is mapped position by position. -/
theorem mapM_yields [BEq Q] {g : Geometry P} (closed : ∀ ring ∈ g.rings, ClosedRing ring)
    (same : ∀ c ∈ g.positions, ∀ d, f c = .ok d → (d == d) = true) (refuse : String → ε) :
    Yields (g.mapM refuse f) (g.Maps (f · = .ok ·)) (g.errors refuse f) := by
  cases g with
  | point c =>
    have mapped := (yields_self (f c)).map (f := Geometry.point)
    rw [errors_of_isMappable rfl, positions, List.flatMap_singleton]
    refine mapped.congr fun g' => ⟨?_, fun maps => ?_⟩
    · rintro ⟨d, image, rfl⟩
      exact .point image
    · cases maps with
      | point image => exact ⟨_, image, rfl⟩
  | lineString cs =>
    have mapped := (positions_yield (f := f) cs).map (f := Geometry.lineString)
    refine mapped.congr fun g' => ⟨?_, fun maps => ?_⟩
    · rintro ⟨ds, images, rfl⟩
      exact .lineString images
    · cases maps with
      | lineString images => exact ⟨_, images, rfl⟩
  | polygon p =>
    have mapped := (Polygon.mapM_yields closed fun ring inside c member =>
      same c (List.mem_flatten_of_mem inside member)).map (f := Geometry.polygon)
    refine mapped.congr fun g' => ⟨?_, fun maps => ?_⟩
    · rintro ⟨q, maps, rfl⟩
      exact .polygon maps
    · cases maps with
      | polygon maps => exact ⟨_, maps, rfl⟩
  | multiPolygon ps =>
    have each : ∀ p ∈ ps, Yields (p.mapM f) (p.Maps (f · = .ok ·))
        (p.rings.flatten.flatMap fun c => failures (f c)) := fun p member =>
      Polygon.mapM_yields (fun ring inside => closed ring (List.mem_flatMap_of_mem member inside))
        fun ring inside c within =>
          same c (List.mem_flatMap_of_mem member (List.mem_flatten_of_mem inside within))
    have mapped := (Yields.mapM each).map (f := Geometry.multiPolygon)
    rw [errors_of_isMappable rfl, positions, List.flatMap_assoc]
    refine mapped.congr fun g' => ⟨?_, fun maps => ?_⟩
    · rintro ⟨qs, maps, rfl⟩
      exact .multiPolygon maps
    · cases maps with
      | multiPolygon maps => exact ⟨_, maps, rfl⟩
  | multiPoint | multiLineString | collection | line | rect | triangle =>
    exact (Yields.error _).congr fun g' => ⟨False.elim, fun maps => by cases maps⟩

end Mapped

end Geometry

/-! ## Positions of doubles -/

/-- A double that is a number equals itself. -/
theorem Binary64.beq_self {x : Float} (h : x.isNaN = false) : (x == x) = true := by
  change x.toModel.unpack.isNaN = false at h
  change (x.toModel.unpack.compare x.toModel.unpack == some .eq) = true
  generalize x.toModel.unpack = u at h ⊢
  cases u with
  | notANumber => cases h
  | infinity sign => cases sign <;> rfl
  | zero sign => rfl
  | finite sign mantissa exponent positive =>
    have equal : (compare exponent exponent).then (compare mantissa mantissa) = .eq := by simp
    cases sign with
    | positive =>
      change (some ((compare exponent exponent).then (compare mantissa mantissa)) == some .eq) = true
      rw [equal]
      rfl
    | negative =>
      change (some ((compare exponent exponent).then (compare mantissa mantissa)).swap == some .eq) =
        true
      rw [equal]
      rfl

/-- Both coordinates are numbers. -/
def Position.isNumber (c : Position) : Bool := !(c.x.isNaN || c.y.isNaN)

theorem Position.beq_self {c : Position} (h : c.isNumber = true) : (c == c) = true := by
  simp only [isNumber, Bool.not_eq_true', Bool.or_eq_false_iff] at h
  change (c.x == c.x && c.y == c.y) = true
  rw [Binary64.beq_self h.1, Binary64.beq_self h.2, Bool.and_self]

namespace Geodesy

open FilterSql.Geometry

/-- A geometry with closed rings is mapped position by position: that succeeds if its shape is one that
can be mapped and no position fails, and the result has the same structure; the first position that
fails decides the error. Reprojection from a system to itself keeps every position. -/
theorem reproject_positionwise {g : Geometry Position} (closed : ∀ ring ∈ g.rings, ClosedRing ring) :
    (∀ f : Position → Except ReprojectionError Position,
      (∀ c ∈ g.positions, ∀ d, f c = .ok d → d.isNumber = true) →
        ((∃ g', g.mapM .unsupportedGeometry f = .ok g') ↔
          g.isMappable = true ∧ ∀ c ∈ g.positions, ∃ d, f c = .ok d) ∧
        (∀ g', g.mapM .unsupportedGeometry f = .ok g' ↔ g.Maps (f · = .ok ·) g') ∧
        (g.isMappable = true → ∀ e, g.mapM .unsupportedGeometry f = .error e ↔
          ∃ before c after, g.positions = before ++ c :: after ∧
            (∀ b ∈ before, ∃ d, f b = .ok d) ∧ f c = .error e)) ∧
      ∀ srid, isSupported srid = true → g.isMappable = true →
        (∀ c ∈ g.positions, c.isNumber = true) → reproject srid srid g = .ok g := by
  constructor
  · intro f numbers
    have same : ∀ c ∈ g.positions, ∀ d, f c = .ok d → (d == d) = true := fun c member d image =>
      Position.beq_self (numbers c member d image)
    have yields := mapM_yields closed same .unsupportedGeometry
    refine ⟨?_, yields.ok_iff, fun mappable e => ?_⟩
    · rw [yields.exists_ok_iff, errors_eq_nil_iff]
    · rw [yields.error_iff e, errors_of_isMappable mappable, head?_flatMap_failures]
  · intro srid supported mappable numbers
    obtain ⟨system, found⟩ := Option.isSome_iff_exists.1 supported
    have same : ∀ c ∈ g.positions, ∀ d, (.ok c : Except ReprojectionError Position) = .ok d →
        (d == d) = true := by
      intro c member d image
      cases image
      exact Position.beq_self (numbers c member)
    simp only [reproject, found, if_true]
    refine ((mapM_yields closed same .unsupportedGeometry).ok_iff g).2 (Maps.refl (fun c => ?_) mappable)
    rfl

/-- A polygon with a hole, and one without positions. -/
def island : Geometry Position :=
  .multiPolygon
    [⟨[⟨5.0, 52.0⟩, ⟨6.0, 52.0⟩, ⟨6.0, 53.0⟩, ⟨5.0, 52.0⟩],
      [[⟨5.5, 52.25⟩, ⟨5.75, 52.25⟩, ⟨5.5, 52.25⟩]]⟩,
     ⟨[], []⟩]

/-- Two positions outside of the domain: one of the outer ring, and one of the hole. -/
def cropped (c : Position) : Except ReprojectionError Position :=
  if c.x == 6.0 then .error .outsideDomain
  else if c.x == 5.5 then .error .invalidText
  else .ok c

theorem reproject_positionwise_island :
    (∀ ring ∈ island.rings, ClosedRing ring) ∧
      (∀ c ∈ island.positions, c.isNumber = true) ∧
      (∀ c ∈ island.positions, ∀ d, cropped c = .ok d → d.isNumber = true) ∧
      island.mapM .unsupportedGeometry cropped = .error .outsideDomain ∧
      reproject 28992 28992 island = .ok island := by
  have closed : ∀ ring ∈ island.rings, ClosedRing ring := by
    simp [island, rings, Polygon.rings, ClosedRing]
  have numbers : ∀ c ∈ island.positions, c.isNumber = true := by decide +kernel
  have kept : ∀ c ∈ island.positions, ∀ d, cropped c = .ok d → d.isNumber = true := by
    intro c member d image
    unfold cropped at image
    split at image
    · cases image
    · split at image
      · cases image
      · cases image
        exact numbers c member
  have west : ((5.0 : Float) == 6.0) = false ∧ ((5.0 : Float) == 5.5) = false := by decide +kernel
  have east : ((6.0 : Float) == 6.0) = true := by decide +kernel
  refine ⟨closed, numbers, kept, ?_, ?_⟩
  · refine ((((reproject_positionwise closed).1 cropped kept).2.2 rfl) .outsideDomain).2
      ⟨[⟨5.0, 52.0⟩], ⟨6.0, 52.0⟩, _, rfl, ?_, ?_⟩
    · simp [cropped, west]
    · simp [cropped, east]
  · exact (reproject_positionwise closed).2 28992 (by decide) rfl numbers

end Geodesy

end FilterSql
