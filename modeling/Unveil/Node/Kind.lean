import Unveil.Numeral.Single

namespace Unveil

/-- Font sizes relative to the base size, smallest first. -/
inductive FontSize where
  | tiny | script | footnote | small | normal | large | larger | largest | huge | huger
  deriving Repr, DecidableEq

namespace FontSize

def all : List FontSize :=
  [tiny, script, footnote, small, normal, large, larger, largest, huge, huger]

def tag : FontSize → String
  | tiny => "tiny"
  | script => "scriptsize"
  | footnote => "footnotesize"
  | small => "small"
  | normal => "normalsize"
  | large => "large"
  | larger => "Large"
  | largest => "LARGE"
  | huge => "huge"
  | huger => "Huge"

def scriptFactor : Float32 := 1.0 / 1.4285714
def smallFactor : Float32 := 1.0 / 1.1111111

/-- Factor on the base font size: the ladder of sizes in an 11 point document. -/
def factor : FontSize → Float32
  | tiny => 0.5
  | script => scriptFactor
  | footnote => 1.0 / 1.25
  | small => smallFactor
  | normal => 1.0
  | large => 1.2
  | larger => 1.44
  | largest => 1.728
  | huge => 2.0736
  | huger => 2.48832

end FontSize

/-- Commands that change the format of the text below them. -/
inductive StyleCommand where
  | bold | italic | underline | smallCaps | typewriter | color | alert
  | size (size : FontSize)
  deriving Repr, DecidableEq

namespace StyleCommand

def tag : StyleCommand → String
  | bold => "bold"
  | italic => "italic"
  | underline => "underline"
  | smallCaps => "smallcaps"
  | typewriter => "typewriter"
  | color => "color"
  | alert => "alert"
  | size s => s.tag

def all : List StyleCommand :=
  [bold, italic, underline, smallCaps, typewriter, color, alert] ++ FontSize.all.map size

end StyleCommand

inductive ListKind where
  | bullet | numbered | description
  deriving Repr, DecidableEq

/-- Nodes that only restrict the passes of their content. -/
inductive Veil where
  | uncover | visible | only
  deriving Repr, DecidableEq

/-- The parts of a document, outermost first. -/
inductive Part where
  | document | preamble | body | slide
  deriving Repr, DecidableEq

/-- Values shown on the title page. -/
inductive TitleField where
  | title | author | date
  deriving Repr, DecidableEq

inductive SectionLevel where
  | section | subsection | subsubsection
  deriving Repr, DecidableEq

/-- What a node of a slide tree stands for. Every kind has the tag that it is written with. -/
inductive NodeKind where
  | part (part : Part)
  | titleField (field : TitleField)
  | graphicsPath
  | path
  | heading (level : SectionLevel)
  | frameTitle
  | frameSubtitle
  | titlePage
  | text
  | paragraph
  | pause
  | style (command : StyleCommand)
  | veil (veil : Veil)
  | list (kind : ListKind)
  | item
  | image
  | tabular
  | tableColumn
  | tableRow
  | hline
  | cline
  | multiColumn
  | unrecognized (tag : String)
  deriving Repr, DecidableEq

namespace NodeKind

/-- The tag of a kind; a kind that is not recognized keeps the tag it came with. -/
def tag : NodeKind → String
  | part .document => "document"
  | part .preamble => "preambule"
  | part .body => "body"
  | part .slide => "slide"
  | titleField .title => "title"
  | titleField .author => "author"
  | titleField .date => "date"
  | graphicsPath => "graphicspath"
  | path => "path"
  | heading .section => "section"
  | heading .subsection => "subsection"
  | heading .subsubsection => "subsubsection"
  | frameTitle => "frametitle"
  | frameSubtitle => "framesubtitle"
  | titlePage => "titlepage"
  | text => "string"
  | paragraph => "paragraph"
  | pause => "pause"
  | style command => command.tag
  | veil .uncover => "uncover"
  | veil .visible => "visible"
  | veil .only => "only"
  | list .bullet => "bulletlist"
  | list .numbered => "numberedlist"
  | list .description => "descriptionlist"
  | item => "item"
  | image => "image"
  | tabular => "tabular"
  | tableColumn => "tablecolumn"
  | tableRow => "tablerow"
  | hline => "hline"
  | cline => "cline"
  | multiColumn => "multicolumn"
  | unrecognized tag => tag

/-- The kinds with a tag of their own. -/
def vocabulary : List NodeKind :=
  [part .document, part .preamble, part .body, part .slide, titleField .title, titleField .author,
    titleField .date, graphicsPath, path, heading .section, heading .subsection,
    heading .subsubsection, frameTitle, frameSubtitle, titlePage, text, paragraph, pause] ++
  StyleCommand.all.map style ++
  [veil .uncover, veil .visible, veil .only, list .bullet, list .numbered, list .description, item,
    image, tabular, tableColumn, tableRow, hline, cline, multiColumn]

/-- Two kinds have a second tag. -/
def aliases : List (String × NodeKind) := [("maketitle", titlePage), ("table", tabular)]

def ofTag (tag : String) : NodeKind :=
  ((vocabulary.find? fun kind => kind.tag == tag).or (aliases.lookup tag)).getD (unrecognized tag)

def isStyle : NodeKind → Bool
  | style _ => true
  | _ => false

def isList : NodeKind → Bool
  | list _ => true
  | _ => false

/-- Content that cannot stand inside a run of text. -/
def isBlock : NodeKind → Bool
  | list _ | image | tabular | titlePage => true
  | _ => false

def isTitleField : NodeKind → Bool
  | titleField _ => true
  | _ => false

def level? : NodeKind → Option SectionLevel
  | heading level => some level
  | _ => none

def size? : NodeKind → Option FontSize
  | style (.size size) => some size
  | _ => none

end NodeKind

end Unveil
