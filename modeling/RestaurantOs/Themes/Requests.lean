import RestaurantOs.Async.Protocol
import RestaurantOs.Payments.Types

/-!
# The theme of a location

Edits of a theme go to a draft, which a publish puts live and a discard throws
away. A publish keeps what was live before it, for one rollback. A save writes the
fields that differ from those that were loaded.
-/

namespace RestaurantOs.Themes

export Payments (Id ApiError Err)

open Async Prog

inductive ThemeKey
  | classic | modern | editorial | cinematic | luxury | contemporary | urban | minimal
  deriving DecidableEq

inductive RadiusScale
  | sharp | soft | rounded
  deriving DecidableEq

inductive Density
  | compact | comfortable | spacious
  deriving DecidableEq

structure ColorOverrides where
  primary : Option String := none
  secondary : Option String := none
  accent : Option String := none
  background : Option String := none
  deriving DecidableEq

structure SectionVisibility where
  hero : Option Bool := none
  featured : Option Bool := none
  about : Option Bool := none
  gallery : Option Bool := none
  cta : Option Bool := none
  deriving DecidableEq

/-- `Partial<RestaurantThemeConfig>`: a stored configuration, or the edit of one. -/
structure ThemeConfig where
  themeKey : Option ThemeKey := none
  themeVersion : Option Nat := none
  colors : Option ColorOverrides := none
  radius : Option RadiusScale := none
  density : Option Density := none
  sections : Option SectionVisibility := none
  deriving DecidableEq

inductive Field
  | themeKey | themeVersion | colors | radius | density | sections
  deriving DecidableEq

namespace ThemeConfig

def sets (config : ThemeConfig) : Field → Bool
  | .themeKey => config.themeKey.isSome
  | .themeVersion => config.themeVersion.isSome
  | .colors => config.colors.isSome
  | .radius => config.radius.isSome
  | .density => config.density.isSome
  | .sections => config.sections.isSome

def Agrees (field : Field) (a b : ThemeConfig) : Prop :=
  match field with
  | .themeKey => a.themeKey = b.themeKey
  | .themeVersion => a.themeVersion = b.themeVersion
  | .colors => a.colors = b.colors
  | .radius => a.radius = b.radius
  | .density => a.density = b.density
  | .sections => a.sections = b.sections

instance (field : Field) (a b : ThemeConfig) : Decidable (Agrees field a b) := by
  cases field <;> exact inferInstanceAs (Decidable (_ = _))

def normalizeThemeConfig (config : ThemeConfig) : ThemeConfig where
  themeKey := config.themeKey.getD .classic
  themeVersion := config.themeVersion.getD 1
  colors := config.colors.getD {}
  sections := config.sections.getD {}
  radius := config.radius
  density := config.density

/-- `{ ...baseline, ...input }`; a field that the input has replaces the whole value. -/
def merge (baseline input : ThemeConfig) : ThemeConfig where
  themeKey := input.themeKey.or baseline.themeKey
  themeVersion := input.themeVersion.or baseline.themeVersion
  colors := input.colors.or baseline.colors
  radius := input.radius.or baseline.radius
  density := input.density.or baseline.density
  sections := input.sections.or baseline.sections

variable {field : Field} {config baseline input : ThemeConfig}

theorem normalize_agrees (h : config.sets field = true) : Agrees field (normalizeThemeConfig config) config := by
  cases field with
  | radius | density => rfl
  | _ =>
    obtain ⟨value, hValue⟩ := Option.isSome_iff_exists.mp h
    simp only [Agrees, normalizeThemeConfig, hValue, Option.getD_some]

theorem merge_agrees (h : input.sets field = true) : Agrees field (merge baseline input) input := by
  cases field <;>
    obtain ⟨value, hValue⟩ := Option.isSome_iff_exists.mp h <;>
    simp only [Agrees, merge, hValue, Option.some_or]

theorem merge_keeps (h : input.sets field = false) : Agrees field (merge baseline input) baseline := by
  cases field <;>
    simp only [sets, Option.isSome_eq_false_iff, Option.isNone_iff_eq_none] at h <;>
    simp only [Agrees, merge, h, Option.none_or]

theorem Agrees.trans {a b c : ThemeConfig} (h : Agrees field a b) (h' : Agrees field b c) : Agrees field a c := by
  cases field <;> exact Eq.trans h h'

theorem Agrees.sets {a b : ThemeConfig} (h : Agrees field a b) (hSets : b.sets field = true) : a.sets field = true := by
  cases field <;> exact (congrArg Option.isSome h).trans hSets

end ThemeConfig

open ThemeConfig (normalizeThemeConfig)

/-- `theme` is `settings.theme`, the configuration that is live. -/
structure Restaurant where
  id : Id
  theme : ThemeConfig := {}
  themeDraft : Option ThemeConfig := none
  themePreviousPublished : Option ThemeConfig := none
  deriving DecidableEq

inductive Path
  | theme | themeDraft | themePreviousPublished
  deriving DecidableEq

/-- A path that is not selected is unset in the loaded copy. The default of
`settings.theme` is left in place: no save of such a copy looks at it. -/
def Restaurant.select (paths : List Path) (r : Restaurant) : Restaurant :=
  { r with
    themeDraft := if .themeDraft ∈ paths then r.themeDraft else none
    themePreviousPublished := if .themePreviousPublished ∈ paths then r.themePreviousPublished else none }

inductive Change
  | updateDraft (input : ThemeConfig)
  | publish
  | rollBack
  | discardDraft
  deriving DecidableEq

namespace Restaurant

def baseline (r : Restaurant) : ThemeConfig := normalizeThemeConfig (r.themeDraft.getD r.theme)

def changed (r : Restaurant) : Change → Restaurant
  | .updateDraft input => { r with themeDraft := some (r.baseline.merge input) }
  | .publish =>
    { r with themePreviousPublished := some r.theme, theme := r.themeDraft.getD r.theme, themeDraft := none }
  | .rollBack => { r with theme := r.themePreviousPublished.getD r.theme, themePreviousPublished := none }
  | .discardDraft => { r with themeDraft := none }

/-- `$set` and `$unset` of the fields that the copy was changed in. -/
def saved (stored loaded edited : Restaurant) : Restaurant where
  id := stored.id
  theme := if edited.theme = loaded.theme then stored.theme else edited.theme
  themeDraft := if edited.themeDraft = loaded.themeDraft then stored.themeDraft else edited.themeDraft
  themePreviousPublished :=
    if edited.themePreviousPublished = loaded.themePreviousPublished then stored.themePreviousPublished
    else edited.themePreviousPublished

end Restaurant

structure Publish where
  restaurantId : Id
  published : ThemeConfig
  replaced : ThemeConfig
  deriving DecidableEq

/-- `publishes` logs what the publishes did, the last one first. -/
structure World where
  restaurants : List Restaurant := []
  publishes : List Publish := []

namespace World

def restaurant? (w : World) (id : Id) : Option Restaurant := w.restaurants.find? (·.id = id)

def publishesOf (w : World) (id : Id) : List Publish := w.publishes.filter (·.restaurantId = id)

def draft? (w : World) (id : Id) : Option ThemeConfig := (w.restaurant? id).bind (·.themeDraft)

def theme? (w : World) (id : Id) : Option ThemeConfig := (w.restaurant? id).map (·.theme)

def logged (w : World) (loaded : Restaurant) (change : Change) : List Publish :=
  match change, w.restaurant? loaded.id with
  | .publish, some stored =>
    { restaurantId := loaded.id, published := (loaded.changed change).theme, replaced := stored.theme } :: w.publishes
  | _, _ => w.publishes

def save (w : World) (loaded : Restaurant) (change : Change) : World where
  restaurants := Tables.update (·.id = loaded.id) (·.saved loaded (loaded.changed change)) w.restaurants
  publishes := w.logged loaded change

end World

inductive Op
  | findById (id : Id) (paths : List Path)
  | save (loaded : Restaurant) (change : Change)
  | recordAuditEvent (restaurantId : Id) (action : String)
  deriving DecidableEq

@[reducible] def Op.Resp : Op → Type
  | findById _ _ => Option Restaurant
  | save _ _ | recordAuditEvent _ _ => Unit

def Op.perform : (op : Op) → World → Except Err op.Resp × World
  | findById id paths, w => (.ok ((w.restaurant? id).map (·.select paths)), w)
  | save loaded change, w => (.ok (), w.save loaded change)
  | recordAuditEvent _ _, w => (.ok (), w)

@[reducible] def store : Store Op Op.Resp Err World (Except Err Unit) Empty :=
  Store.faulty ⟨fun o _ w => o.perform w, Empty.elim⟩ id

abbrev Promise (α : Type) := Prog Op Op.Resp Err α

def throwApi {α : Type} (error : ApiError) : Promise α := .raise (.api error)

/-! ## Requests -/

inductive Response
  | draft (draft : ThemeConfig)
  | theme (theme : ThemeConfig)
  | message (text : String)
  deriving DecidableEq

def findRestaurantOrThrow (restaurantId : Id) (paths : List Path) : Promise Restaurant := do
  let restaurant : Option Restaurant ← .call (Op.findById restaurantId paths)
  match restaurant with
  | none => throwApi (.notFound "Restaurant not found")
  | some restaurant => pure restaurant

def recordAuditEvent (restaurantId : Id) (action : String) : Promise Unit := do
  let _ ← (.call (Op.recordAuditEvent restaurantId action) : Promise Unit).attempt
  pure ()

def updateThemeDraft (restaurantId : Id) (input : ThemeConfig) : Promise Response := do
  let restaurant ← findRestaurantOrThrow restaurantId [.theme, .themeDraft]
  .call (Op.save restaurant (.updateDraft input))
  pure (.draft (restaurant.baseline.merge input))

def publishTheme (restaurantId : Id) : Promise Response := do
  let restaurant ← findRestaurantOrThrow restaurantId [.theme, .themeDraft]
  if restaurant.themeDraft.isNone then throwApi (.badRequest "There are no unpublished theme changes to publish.")
  else
    .call (Op.save restaurant .publish)
    recordAuditEvent restaurant.id "restaurant.theme_published"
    pure (.theme (normalizeThemeConfig (restaurant.changed .publish).theme))

def rollbackTheme (restaurantId : Id) : Promise Response := do
  let restaurant ← findRestaurantOrThrow restaurantId [.theme, .themePreviousPublished]
  if restaurant.themePreviousPublished.isNone then
    throwApi (.badRequest "There is no previous published theme to roll back to.")
  else
    .call (Op.save restaurant .rollBack)
    recordAuditEvent restaurant.id "restaurant.theme_rolled_back"
    pure (.theme (normalizeThemeConfig (restaurant.changed .rollBack).theme))

def discardThemeDraft (restaurantId : Id) : Promise Response := do
  let restaurant ← findRestaurantOrThrow restaurantId [.themeDraft]
  .call (Op.save restaurant .discardDraft)
  pure (.message "Draft discarded.")

inductive Request
  | updateThemeDraft (restaurantId : Id) (input : ThemeConfig)
  | publishTheme (restaurantId : Id)
  | rollbackTheme (restaurantId : Id)
  | discardThemeDraft (restaurantId : Id)
  deriving DecidableEq

def Request.program : Request → Promise Response
  | updateThemeDraft restaurantId input => Themes.updateThemeDraft restaurantId input
  | publishTheme restaurantId => Themes.publishTheme restaurantId
  | rollbackTheme restaurantId => Themes.rollbackTheme restaurantId
  | discardThemeDraft restaurantId => Themes.discardThemeDraft restaurantId

abbrev State := Config Op Op.Resp Err World Response

def State.start (w : World) (requests : List Request) : State := Config.initial w (requests.map Request.program)

end RestaurantOs.Themes
