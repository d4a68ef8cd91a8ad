/-! # Names of pseudo-classes and pseudo-elements

The names that a selector is written with in lower case, whatever the case they were read in. -/

namespace StyleBump.Selector

/-- Pseudo-classes for the state that a user's action puts an element in. -/
def userActions : List String := ["hover", "active", "focus", "focus-visible", "focus-within"]

/-- Pseudo-classes that tell the place of an element among others. -/
def structural : List String :=
  ["first-child", "last-child", "only-child", "root", "empty", "scope", "host", "first-of-type",
   "last-of-type", "only-of-type"]

/-- Pseudo-classes of the parts of a scroll bar. -/
def scrollbarClasses : List String :=
  ["horizontal", "vertical", "decrement", "increment", "start", "end", "double-button",
   "single-button", "no-button", "corner-present", "window-inactive"]

/-- Pseudo-classes that a part of a scroll bar may have. -/
def scrollbarStates : List String := scrollbarClasses ++ ["enabled", "disabled", "hover", "active"]

/-- Pseudo-classes without arguments that have a meaning of their own. -/
def knownClasses : List String :=
  userActions ++ scrollbarClasses ++
  ["current", "past", "future", "playing", "paused", "seeking", "buffering", "stalled", "muted",
   "volume-locked", "fullscreen", "-webkit-full-screen", "-moz-full-screen", "-ms-fullscreen", "open",
   "closed", "modal", "picture-in-picture", "popover-open", "defined", "any-link",
   "-webkit-any-link", "-moz-any-link", "link", "local-link", "target", "target-within", "visited",
   "enabled", "disabled", "read-only", "-moz-read-only", "read-write", "-moz-read-write",
   "placeholder-shown", "-moz-placeholder", "-ms-input-placeholder", "default", "checked",
   "indeterminate", "blank", "valid", "invalid", "in-range", "out-of-range", "required", "optional",
   "user-valid", "user-invalid", "autofill", "-webkit-autofill", "-o-autofill",
   "active-view-transition"]

/-- Names of pseudo-classes that are written in another way. -/
def classSpellings : List (String × String) :=
  [("-moz-placeholder", "-moz-placeholder-shown"), ("-ms-input-placeholder", "-ms-placeholder-shown")]

/-- Names of pseudo-elements that are written in another way. -/
def elementSpellings : List (String × String) := [("-ms-input-placeholder", "-moz-placeholder")]

/-- Pseudo-elements that are written with one colon and may be read with one. -/
def oneColon : List String := ["before", "after", "first-line", "first-letter"]

/-- Pseudo-elements that stand for a part of a scroll bar. -/
def scrollbarElements : List String :=
  ["-webkit-scrollbar", "-webkit-scrollbar-button", "-webkit-scrollbar-track",
   "-webkit-scrollbar-track-piece", "-webkit-scrollbar-thumb", "-webkit-scrollbar-corner",
   "-webkit-resizer"]

/-- Pseudo-elements without arguments that have a meaning of their own. -/
def knownElements : List String :=
  oneColon ++ scrollbarElements ++
  ["details-content", "target-text", "search-text", "spelling-error", "grammar-error", "cue",
   "cue-region", "selection", "-moz-selection", "placeholder", "-webkit-input-placeholder",
   "-moz-placeholder", "-ms-input-placeholder", "marker", "backdrop", "-webkit-backdrop",
   "file-selector-button", "-webkit-file-upload-button", "-ms-browse", "picker-icon", "checkmark",
   "view-transition"]

/-- Pseudo-elements that take a selector or the name of a part. -/
def knownElementFunctions : List String :=
  ["cue", "cue-region", "picker"] ++ transitionParts
where
  transitionParts : List String :=
    ["view-transition-group", "view-transition-image-pair", "view-transition-old",
     "view-transition-new"]

/-- Pseudo-elements of a transition between views. -/
def isViewTransition (name : String) : Bool :=
  "view-transition".toList.isPrefixOf name.toList

/-- Pseudo-classes that count the siblings of an element. -/
def nthNames : List String :=
  ["nth-child", "nth-last-child", "nth-of-type", "nth-last-of-type", "nth-col", "nth-last-col"]

/-- Those of them that can count the siblings of one kind only. -/
def nthAmongNames : List String := ["nth-child", "nth-last-child"]

/-- Pseudo-classes that match what any selector of a list matches; a selector of the list that cannot
be read is passed over. -/
def matchingNames : List String := ["is", "where", "-webkit-any", "-moz-any"]

end StyleBump.Selector
