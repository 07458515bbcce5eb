import ArtifactSelection.Attributes
import ArtifactSelection.Exclusion

/-!
What happens along the way, as values. An event says nothing that an answer depends on; its level,
its topic and its text are read off it when it is shown.
-/

namespace ArtifactSelection

inductive Level where
  | trace
  | debug
  | warn
deriving DecidableEq, Ord, Repr

instance : ToString Level where
  toString
    | .trace => "TRACE"
    | .debug => "DEBUG"
    | .warn => "WARN"

inductive Event where
  | reused (variant : String)
  | building (variant : String)
  | notBuilt (variant : String)
  | copying (source target : ComponentId)
  | preparing (variant : String)
  | joined (graphVariants : Nat) (component : ComponentId) (physicalVariants : Nat)
  | ownVariantsOnly (component : ComponentId) (configuration : String)
  | moduleExcluded (module : ModuleCoordinate) (exclusion : Exclusion)
  | matched (matching candidates : Nat) (component : ComponentId) (overrides : Attributes)
  | fellBack (component : ComponentId) (overrides : Attributes)
  | artifactExcluded (artifact : ArtifactName)
  | flattened (variants artifacts : Nat)
  | settingsLoaded (path : String)
deriving Repr

namespace Event

def level : Event → Level
  | reused _ | ownVariantsOnly _ _ | artifactExcluded _ | flattened _ _ => .trace
  | fellBack _ _ => .warn
  | _ => .debug

def topic : Event → String
  | reused _ | building _ | notBuilt _ | copying _ _ => "variant_cache"
  | preparing _ => "variant"
  | joined _ _ _ | ownVariantsOnly _ _ => "aggregator"
  | moduleExcluded _ _ | matched _ _ _ _ | fellBack _ _ | artifactExcluded _ | flattened _ _ =>
    "selector"
  | settingsLoaded _ => "config"

def message : Event → String
  | reused v => "cache hit for '" ++ v ++ "'"
  | building v => "building state for '" ++ v ++ "'"
  | notBuilt v => "building state for '" ++ v ++ "' failed; entry not cached"
  | copying source target => "copying " ++ toString source ++ " as " ++ toString target
  | preparing v => "preparing variant '" ++ v ++ "'"
  | joined n component k =>
    toString n ++ " graph traversal variant(s) of " ++ toString component ++ " offer " ++
      toString k ++ " physical variant(s)"
  | ownVariantsOnly component configuration =>
    toString component ++ " has no graph traversal variants; using '" ++ configuration ++ "' only"
  | moduleExcluded m e => toString m ++ " excluded by " ++ toString e
  | matched n k component overrides =>
    toString n ++ " of " ++ toString k ++ " candidate variant(s) of " ++ toString component ++
      " match " ++ toString overrides
  | fellBack component overrides =>
    "No variant of " ++ toString component ++ " matches " ++ toString overrides ++
      "; using the declared variants"
  | artifactExcluded a => "excluding " ++ toString a
  | flattened n k =>
    "flattened " ++ toString n ++ " variant(s) into " ++ toString k ++ " artifact(s)"
  | settingsLoaded path => "loaded settings from " ++ path

end Event

end ArtifactSelection
