/-
The standard vocabulary: the short names known without any configuration, and the prefixes of style properties.
-/
import TerseStyle.Vocabulary

namespace TerseStyle.Vocabulary

/-- the entries of a written table -/
def entriesOf (table : List (String × String)) : List (Text × Text) :=
  table.map fun (key, value) => (key.toList, value.toList)

/-- Short names with the classes that they stand for; an empty class means the name itself. -/
def standardClasses : List (String × String) :=
  [("absolute", "absolute"), ("accordionPanel", ""), ("action-plan", ""), ("action-plan-variables", ""),
    ("alignCenter", "items-center"), ("alignFlexEnd", "items-end"), ("alignFlexStart", "items-start"),
    ("anchor-bottom", ""), ("anchor-bottom-left", ""), ("anchor-bottom-right", ""), ("anchor-left", ""),
    ("anchor-middle", ""), ("anchor-right", ""), ("anchor-top", ""), ("anchor-top-left", ""),
    ("anchor-top-right", ""), ("aspect1-1", "aspect-square"), ("aspect16-9", "aspect-w-16 aspect-h-9"),
    ("aspect2-1", "aspect-w-2 aspect-h-1"), ("backGradient", ""), ("bg-background", ""), ("bg-blue", ""),
    ("bg-border", ""), ("bg-darkBG", ""), ("bg-darkBlue", ""), ("bg-darkerBlue", ""), ("bg-darkerBlue2", ""),
    ("bg-darkerBlue3", ""), ("bg-darkRed", ""), ("bg-firstLayer", ""), ("bg-gold", ""), ("bg-highlight", ""),
    ("bg-input", ""), ("bg-lightBlue", ""), ("bg-mainLayer", ""), ("bg-secondLayer", ""), ("bg-white", ""),
    ("bg-white2", ""), ("block", "block"), ("bold", "font-bold"), ("border", ""), ("borderB", "border-b-1"),
    ("borderBlue", ""), ("borderFull", ""), ("borderInput", ""), ("borderL", "border-l-1"),
    ("borderR", "border-r-1"), ("borders", ""), ("borderT", "border-t-1"), ("brightenHover", ""),
    ("brighter", ""), ("button", ""), ("buttonForm", ""), ("center", "justify-center items-center"),
    ("circle", "rounded-full"), ("col", "flex-col"), ("colMobile", "sm:flex-col"), ("color-bg", ""),
    ("color-black", ""), ("color-highlight", ""), ("color-icon-highlight", ""), ("color-red", ""),
    ("color-white", ""), ("color-white2", ""), ("color-white5", ""), ("color-white7", ""), ("colorPanel", ""),
    ("colorPanelMobile", ""), ("colReversed", ""), ("container", "container"), ("crazy-cone-gradient", ""),
    ("dangerButton", ""), ("darker", ""), ("debug", ""), ("editButton", ""), ("editorButton", ""),
    ("editorPanel", ""), ("elevation0", "shadow-none"), ("elevation1", "shadow-sm"), ("elevation2", "shadow"),
    ("elevation3", "shadow-md"), ("elevation4", "shadow-lg"), ("elevation5", "shadow-xl"),
    ("elevation6", "shadow-2xl"), ("elevation7", ""), ("elevation8", "shadow-2xl"),
    ("elevation9", "shadow-2xl"), ("emoji", ""), ("enableTouch", ""), ("f0", "flex-0"), ("f1", "flex-1"),
    ("f2", "flex-2"), ("f4", "flex-4"), ("fBold", ""), ("fColDark", ""), ("fColError", ""), ("fColGray", ""),
    ("fColLight", ""), ("fColPrimary", ""), ("fColWhite", ""), ("fg1", ""), ("fHud", ""), ("fixed", ""),
    ("flex", "flex"), ("flexEnd", ""), ("flexStart", ""), ("fLight", ""), ("flowButton", ""),
    ("flowButtonDisabled", ""), ("flowButtonText", ""), ("flowContainer", ""), ("flowContainerParent", ""),
    ("flowInput", ""), ("flowPillButton", ""), ("flowSelectButton", ""), ("flowSelectButtonDisabled", ""),
    ("flowSelectButtonSelected", ""), ("flowSite", ""), ("fMonoSpace", ""), ("fRegular", ""),
    ("fRegularSite", ""), ("fSBold", ""), ("fSite", ""), ("fSiteBody", ""), ("fThin", ""),
    ("full", "w-full h-full"), ("fullHeight", "h-full"), ("fullScreenWidth", "w-screen"),
    ("fullView", "full-view"), ("fullViewHeight", "full-view-height"), ("fullWidth", "w-full"),
    ("gameObjectTypePanel", "game-object-type-panel"), ("gap-l", "gap-4"), ("gap-m", "gap-2"),
    ("gap-s", "gap-1"), ("gap-xs", "gap-0.5"), ("gradient", ""), ("grid1", ""), ("grid2", ""), ("grid3", ""),
    ("grid4", ""), ("grid5", ""), ("gridAuto", ""), ("halfUiGap", ""), ("hidden", "hidden"),
    ("hollowBorder", ""), ("hollowButton", ""), ("homeButton", ""), ("homeButtonGold", ""),
    ("hudEditorPanel", "hud-editor-panel"), ("hudElement", ""), ("hudElementNoBackground", ""),
    ("hudPanel", "hud-panel"), ("hudProgressBar", ""), ("icon", ""), ("icon-add", ""), ("icon-assets", ""),
    ("icon-boundingbox", ""), ("icon-color-drop-pick", ""), ("icon-config", ""), ("icon-drawings", ""),
    ("icon-entityTypes", ""), ("icon-events", ""), ("icon-gameconfig", ""), ("icon-map", ""),
    ("icon-physics", ""), ("icon-publish", ""), ("icon-sourcecontrol", ""), ("icon-tilemap", ""),
    ("icon-timers", ""), ("icon-variables", ""), ("inline-block", "inline-block"),
    ("inline-flex", "inline-flex"), ("inlineBlock", "inline-block"), ("isolate", ""),
    ("justifyCenter", "justify-center"), ("justifyStretch", "justify-stretch"), ("keyboard-grid", ""),
    ("keyboard-grid-no-modifier", ""), ("keyboard-minus-x", ""), ("keyboard-minus-y", ""),
    ("keyboard-minus-z", ""), ("keyboard-plus-alt", ""), ("keyboard-plus-delete", ""), ("keyboard-plus-x", ""),
    ("keyboard-plus-y", ""), ("keyboard-plus-z", ""), ("keyButton", ""), ("keyButtonModifier", ""),
    ("keyButtonOperation", ""), ("link", ""), ("m-0", ""), ("m-auto", ""), ("m-l", ""), ("m-m", ""),
    ("m-s", ""), ("m-xs", ""), ("mapEditorPanel", "map-editor-panel"), ("mapObjectPanel", "map-object-panel"),
    ("mapObjectPanelWide", "map-object-panel-wide"), ("marginAuto", "ml-auto mr-auto"),
    ("marginVAuto", "mt-auto mb-auto"), ("mb-l", "mb-6"), ("mb-m", "mb-4"), ("mb-s", "mb-2"), ("mb-xs", "mb-1"),
    ("menuItem", ""), ("menuItemBig", ""), ("mh-0", "mx-0"), ("mh-l", "mx-6"), ("mh-m", "mx-4"),
    ("mh-s", "mx-2"), ("mh-xl", "mx-8"), ("mh-xs", "mx-1"), ("ml-l", "ml-6"), ("ml-m", "ml-4"),
    ("ml-s", "ml-2"), ("ml-xs", "ml-1"), ("mr-l", "mr-6"), ("mr-m", "mr-4"), ("mr-s", "mr-2"),
    ("mr-xs", "mr-1"), ("mt-l", "mt-6"), ("mt-m", "mt-4"), ("mt-s", "mt-2"), ("mt-xl", "mt-8"),
    ("mt-xs", "mt-1"), ("mv-l", "my-6"), ("mv-m", "my-4"), ("mv-s", "my-2"), ("mv-xs", "my-1"),
    ("mv-xxs", "my-0.5"), ("noFont", ""), ("noSelect", "user-select-none"), ("noTouch", "pointer-events-none"),
    ("objectContain", "object-contain"), ("objectCover", "object-cover"), ("onlyOneLine", "only-one-line"),
    ("overflow-hidden", "overflow-hidden"), ("overflow-y-auto", "overflow-y-auto"),
    ("overflow-y-scroll", "overflow-y-scroll"), ("overflowXAuto", "overflow-x-auto"),
    ("overflowYAuto", "overflow-y-auto"), ("p-0", "p-0"), ("p-l", "p-6"), ("p-m", "p-4"), ("p-s", "p-2"),
    ("p-xs", "p-1"), ("panel", "panel"), ("pb-l", "pb-6"), ("pb-m", "pb-4"), ("pb-s", "pb-2"),
    ("pb-xs", "pb-1"), ("ph-l", "px-6"), ("ph-m", "px-4"), ("ph-s", "px-2"), ("ph-xl", "px-8"),
    ("ph-xs", "px-1"), ("pl-0", "pl-0"), ("pl-l", "pl-6"), ("pl-m", "pl-4"), ("pl-s", "pl-2"),
    ("pl-xs", "pl-1"), ("pointer", "cursor-pointer"), ("pointer-ew", "cursor-ew-resize"),
    ("pointer-ns", "cursor-ns-resize"), ("pr-l", "pr-6"), ("pr-m", "pr-4"), ("pr-s", "pr-2"), ("pr-xs", "pr-1"),
    ("primaryButton", "primary-button"), ("pt-l", ""), ("pt-m", ""), ("pt-s", ""), ("pt-xs", ""), ("pv-0", ""),
    ("pv-l", ""), ("pv-m", ""), ("pv-s", ""), ("pv-xl", ""), ("pv-xs", ""), ("qgBorder", ""),
    ("qgBorderButton", ""), ("qgBorderButtonCustom", ""), ("qgBorderButtonGold", ""), ("qgBorderButtonRed", ""),
    ("qgGameFilter", ""), ("radius-button", ""), ("radius-panel", ""), ("rangeInput", ""),
    ("rangeInputInner", ""), ("really-no-select", ""), ("relative", "relative"), ("round", ""),
    ("row", "flex-row"), ("rowMobile", "sm:flex-row"), ("selfCenter", "self-center"), ("selfEnd", "self-end"),
    ("selfStretch", "self-stretch"), ("simpleMenuItem", ""), ("size2xl", ""), ("size3xl", ""), ("size4xl", ""),
    ("size5xl", ""), ("size6xl", ""), ("size7xl", ""), ("size8xl", ""), ("size9xl", ""), ("sizeBase", ""),
    ("sizeLg", ""), ("sizeSm", ""), ("sizeXl", ""), ("sizeXs", ""), ("spaceAround", ""), ("spaceBetween", ""),
    ("spanGridColumns", ""), ("spanGridRows", ""), ("stretch", ""), ("tabBody", ""), ("tag", ""),
    ("text-break-word", ""), ("text-shadow", ""), ("text-shadow2", ""), ("textAreaInput", ""),
    ("textCenter", ""), ("textInput", ""), ("textInputBig", ""), ("textInputNoWidth", ""),
    ("textInputTall", ""), ("textLeft", ""), ("textRight", ""), ("tintWhite", ""), ("truncate", ""),
    ("widthInitial", ""), ("wrap", "")]

/-- Style properties with the prefix of their utility classes. -/
def standardPrefixes : List (String × String) :=
  [("alignSelf", "self"), ("alignItems", "items"), ("alignContent", "content"), ("justifyContent", "justify"),
    ("flex", "flex"), ("scale", "scale"), ("backgroundColor", "bg"), ("borderRadius", "rounded"),
    ("borderTopLeftRadius", "rounded-tl"), ("borderTopRightRadius", "rounded-tr"),
    ("borderBottomLeftRadius", "rounded-bl"), ("borderBottomRightRadius", "rounded-br"), ("width", "w"),
    ("height", "h"), ("top", "top"), ("left", "left"), ("right", "right"), ("bottom", "bottom"),
    ("padding", "p"), ("paddingTop", "pt"), ("paddingLeft", "pl"), ("paddingRight", "pr"),
    ("paddingBottom", "pb"), ("margin", "m"), ("marginTop", "mt"), ("marginLeft", "ml"), ("marginRight", "mr"),
    ("marginBottom", "mb"), ("borderWidth", "border"), ("borderTopWidth", "border-t"),
    ("borderLeftWidth", "border-l"), ("borderRightWidth", "border-r"), ("borderBottomWidth", "border-b"),
    ("border", "border"), ("borderTop", "border-t"), ("borderLeft", "border-l"), ("borderRight", "border-r"),
    ("borderBottom", "border-b"), ("borderColor", "border"), ("borderStyle", "border"), ("gap", "gap"),
    ("transform", "transform"), ("textShadow", "shadow"), ("fontSize", "text"), ("color", "text"),
    ("fontWeight", "font"), ("fontFamily", "font"), ("lineHeight", "leading"), ("letterSpacing", "tracking"),
    ("zIndex", "z"), ("opacity", "opacity"), ("overflowY", "overflow-y"), ("overflowX", "overflow-x"),
    ("overflow", "overflow"), ("boxShadow", "shadow"), ("minWidth", "min-w"), ("maxWidth", "max-w"),
    ("minHeight", "min-h"), ("maxHeight", "max-h")]

/-- the vocabulary that is in force unless a configuration says otherwise -/
def standard : Vocabulary where
  classes := .ofList (entriesOf standardClasses)
  propertyPrefixes := .ofList (entriesOf standardPrefixes)

end TerseStyle.Vocabulary
