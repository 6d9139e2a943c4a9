import GLHeader.CommandLine.Run
import GLHeader.Header.Templates
import GLHeader.Main
import GLHeader.Session
import GLHeader.Surface.Dump
import GLHeader.Xml.Document
import GLHeader.Proofs.CommandLine.Effects
import GLHeader.Proofs.Registry.Definitions
import GLHeader.Proofs.Release.Families
import GLHeader.Proofs.Surface.Exposure
import GLHeader.Proofs.Surface.Faults
import GLHeader.Proofs.Surface.Placement
import GLHeader.Proofs.Text.Lines
import GLHeader.Proofs.Text.Pattern
import GLHeader.Proofs.Header.Regions
import GLHeader.Proofs.Header.SectionLines
import GLHeader.Proofs.Header.Pointers
import GLHeader.Proofs.Header.Activity
import GLHeader.Proofs.Header.Growth
import GLHeader.Proofs.Header.Guards
import GLHeader.Proofs.Header.ProfileText
import GLHeader.Proofs.Header.TemplateFaults
import GLHeader.Proofs.Template.Splicing
import GLHeader.Proofs.Json.Reader
import GLHeader.Proofs.Surface.RoundTrip
import GLHeader.Proofs.Header.LoadedSymbols
import GLHeader.Proofs.Header.TypeDirectives
import GLHeader.Proofs.Registry.Usability
import GLHeader.Proofs.Header.TypeText
import GLHeader.Proofs.Registry.AliasWords
import GLHeader.Proofs.Surface.Remarks
import GLHeader.Proofs.Header.Prototypes
import GLHeader.Proofs.Text.NormalForm
import GLHeader.Proofs.Session.Steps
import GLHeader.Proofs.Xml.Merged
import GLHeader.Proofs.Registry.TypeSpellings
